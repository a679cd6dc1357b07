import Mathlib.Algebra.Order.BigOperators.Group.Finset
import Mathlib.Algebra.Order.Ring.Abs
import Mathlib.Algebra.Order.Ring.Int
import DemandPaging.Proofs.Matrix.Layout

/-!
# Products without wrapping

Sums and products of elements are taken modulo the size of a word. Here the same products are formed
with integers, and a result that is not the value of a word is refused. Where no intermediate result
leaves the range of a word, both do the same, in ordinary and in managed memory. That is so for drawn
elements, as long as a row does not have too many of them.
-/

namespace DemandPaging

namespace Matrix

variable {f g : Nat → Nat → Int32} {n r c k : Nat} {x y sum : Int32}

/-! ## Arithmetic that does not wrap -/

/-- The integers that are the value of a word. -/
def InRange (x : Int) : Prop := -2147483648 ≤ x ∧ x ≤ 2147483647

instance (x : Int) : Decidable (InRange x) := inferInstanceAs (Decidable (_ ∧ _))

/-- The word with the value `x`, if there is one. -/
def exactly (x : Int) (otherwise : Panic) : Except Panic Int32 :=
  if InRange x then .ok (Int32.ofInt x) else .error otherwise

/-- Add the product of two elements to a sum. The product and the new sum have to be values of
words. -/
def addProduct (sum x y : Int32) : Except Panic Int32 := do
  let term ← exactly (x.toInt * y.toInt) .multiplyOverflow
  exactly (sum.toInt + term.toInt) .addOverflow

theorem toInt_ofInt_of_inRange {x : Int} (h : InRange x) : (Int32.ofInt x).toInt = x :=
  Int32.toInt_ofInt_of_le h.1 (Int.lt_of_le_of_lt h.2 (by decide))

/-- Words are added and multiplied like integers while the results are in range. -/
theorem addProduct_of_inRange (hterm : InRange (x.toInt * y.toInt))
    (hsum : InRange (sum.toInt + x.toInt * y.toInt)) : addProduct sum x y = .ok (sum + x * y) := by
  have hterm' : exactly (x.toInt * y.toInt) .multiplyOverflow = .ok (x * y) := by
    rw [exactly, if_pos hterm, Int32.ofInt_mul, Int32.ofInt_toInt, Int32.ofInt_toInt]
  have hvalue : (x * y).toInt = x.toInt * y.toInt := by
    rw [← toInt_ofInt_of_inRange hterm, Int32.ofInt_mul, Int32.ofInt_toInt, Int32.ofInt_toInt]
  have hsum' : exactly (sum.toInt + (x * y).toInt) .addOverflow = .ok (sum + x * y) := by
    rw [exactly, hvalue, if_pos hsum, ← hvalue, Int32.ofInt_add, Int32.ofInt_toInt,
      Int32.ofInt_toInt]
  unfold addProduct
  rw [hterm']
  exact hsum'

/-! ## Matrices whose product does not wrap -/

/-- The sum of the first `k` products of the row `r` and the column `c`, as an integer. -/
def exactSum (f g : Nat → Nat → Int32) (k r c : Nat) : Int :=
  ∑ i ∈ Finset.range k, (f r i).toInt * (g i c).toInt

theorem exactSum_succ (f g : Nat → Nat → Int32) (k r c : Nat) :
    exactSum f g (k + 1) r c = exactSum f g k r c + (f r k).toInt * (g k c).toInt :=
  Finset.sum_range_succ _ k

/-- No intermediate result of the product leaves the range of a word. -/
structure Exact (f g : Nat → Nat → Int32) (n : Nat) : Prop where
  /-- The products of two elements. -/
  term : ∀ r < n, ∀ c < n, ∀ k < n, InRange ((f r k).toInt * (g k c).toInt)
  /-- The sums of the first of these. -/
  sum : ∀ r < n, ∀ c < n, ∀ k ≤ n, InRange (exactSum f g k r c)

/-- The words that are summed up have the values of the sums. -/
theorem Exact.toInt_product (h : Exact f g n) (hr : r < n) (hc : c < n) (hk : k ≤ n) :
    (product f g k r c).toInt = exactSum f g k r c :=
  toInt_ofInt_of_inRange (h.sum r hr c hc k hk)

/-- One more product is added without wrapping. -/
theorem Exact.addProduct_eq (h : Exact f g n) (hr : r < n) (hc : c < n) (hk : k < n) :
    addProduct (product f g k r c) (f r k) (g k c) = .ok (product f g (k + 1) r c) := by
  have hsum := h.sum r hr c hc (k + 1) hk
  rw [exactSum_succ, ← h.toInt_product hr hc (Nat.le_of_lt hk)] at hsum
  rw [product_succ]
  exact addProduct_of_inRange (h.term r hr c hc k hk) hsum

/-- The elements are at most the largest one that is drawn. -/
def Bounded (f : Nat → Nat → Int32) (n : Nat) : Prop := ∀ r < n, ∀ c < n, |(f r c).toInt| ≤ elementBound

/-- The product of bounded matrices does not wrap while its rows are not too long. -/
theorem Bounded.exact (hf : Bounded f n) (hg : Bounded g n) (hn : n ≤ 2147) : Exact f g n := by
  have hterm {r c k : Nat} (hr : r < n) (hc : c < n) (hk : k < n) :
      |(f r k).toInt * (g k c).toInt| ≤ 1000000 := by
    rw [abs_mul]
    exact mul_le_mul (hf r hr k hk) (hg k hk c hc) (abs_nonneg _) (by decide)
  have hsum {r c k : Nat} (hr : r < n) (hc : c < n) (hk : k ≤ n) :
      |exactSum f g k r c| ≤ k * 1000000 := calc
    |exactSum f g k r c| ≤ ∑ i ∈ Finset.range k, |(f r i).toInt * (g i c).toInt| :=
      Finset.abs_sum_le_sum_abs _ _
    _ ≤ (Finset.range k).card • (1000000 : Int) := Finset.sum_le_card_nsmul _ _ _ fun i hi =>
      hterm hr hc (Nat.lt_of_lt_of_le (Finset.mem_range.mp hi) hk)
    _ = k * 1000000 := by rw [Finset.card_range, nsmul_eq_mul]
  constructor
  · intro r hr c hc k hk
    have := abs_le.mp (hterm hr hc hk)
    exact ⟨by omega, by omega⟩
  · intro r hr c hc k hk
    have := abs_le.mp (hsum hr hc hk)
    exact ⟨by omega, by omega⟩

/-- Any draw in range makes an element that is at most the bound in absolute value. -/
theorem abs_ofInt_sub_le {draw : Nat} (hlt : draw < 2 * elementBound + 1) :
    |(Int32.ofInt (draw - elementBound)).toInt| ≤ elementBound := by
  have hbound : elementBound = 1000 := rfl
  have hvalue : (Int32.ofInt (draw - elementBound)).toInt = draw - elementBound :=
    toInt_ofInt_of_inRange ⟨by omega, by omega⟩
  rw [hvalue, abs_le]
  exact ⟨by omega, by omega⟩

theorem abs_drawElement_le (s : Random.Stream) : |(drawElement s).1.toInt| ≤ elementBound :=
  abs_ofInt_sub_le (s.below_lt .narrow (by decide))

theorem bounded_drawn (s : Random.Stream) (n : Nat) : Bounded (drawn s n) n := fun _ _ _ _ =>
  abs_drawElement_le _

/-! ## Products with checks -/

section By

variable {m m' : Type → Type} [Monad m] [Monad m'] {ω : Type} {B : Comparison m m' ω}
  {Q : ω → Prop} {accumulate : Int32 → Int32 → Int32 → m Int32} {a b out : Matrix m}
  {a' b' out' : Matrix m'} {v : ω}

/-- The product of a row and a column, where `accumulate` adds the product of two elements to a
sum. -/
def dotBy (accumulate : Int32 → Int32 → Int32 → m Int32) (left right : Matrix m) (r c : Nat) :
    m Int32 :=
  (List.range left.columns).foldlM (fun sum k => do
    accumulate sum (← left.get r k) (← right.get k c)) 0

/-- The product of two matrices, formed with `accumulate`. -/
def multiplyBy (accumulate : Int32 → Int32 → Int32 → m Int32) (left right out : Matrix m)
    (onRow : Nat → m Unit) : m Unit :=
  (List.range left.rows).forM fun r => do
    (List.range right.columns).forM fun c => do
      out.set r c (← dotBy accumulate left right r c)
    onRow r

/-- The product of matrices is formed with words, modulo their size. -/
theorem multiply_eq_multiplyBy (left right out : Matrix m) (onRow : Nat → m Unit) :
    multiply left right out onRow =
      multiplyBy (fun sum x y => pure (sum + x * y)) left right out onRow :=
  rfl

/-- Both matrices have `n` rows and columns, and in the states of `Q` the elements of `f`. -/
structure Alike (B : Comparison m m' ω) (Q : ω → Prop) (n : Nat) (f : Nat → Nat → Int32)
    (a : Matrix m) (a' : Matrix m') : Prop where
  /-- The rows of the first one. -/
  rows : a.rows = n
  /-- The columns of the first one. -/
  columns : a.columns = n
  /-- The rows of the second one. -/
  rows' : a'.rows = n
  /-- The columns of the second one. -/
  columns' : a'.columns = n
  /-- The elements are read on both sides. -/
  get : ∀ v r c, Q v → r < n → c < n → B.Match (a.get r c) (a'.get r c) v (f r c) v

/-- On both sides an element can be replaced. -/
def Writable (B : Comparison m m' ω) (Q : ω → Prop) (n : Nat) (out : Matrix m) (out' : Matrix m') :
    Prop :=
  ∀ v r c x, Q v → r < n → c < n → ∃ v', B.Match (out.set r c x) (out'.set r c x) v () v' ∧ Q v'

/-- The words of a row and a column are summed up as if they were integers. -/
theorem match_dotBy (ha : Alike B Q n f a a') (hb : Alike B Q n g b b') (h : Exact f g n)
    (haccumulate : ∀ sum x y z v, addProduct sum x y = .ok z →
      B.Match (accumulate sum x y) (pure z) v z v)
    (hv : Q v) (hr : r < n) (hc : c < n) :
    B.Match (dotBy accumulate a b r c) (dotBy (fun sum x y => pure (sum + x * y)) a' b' r c) v
      (product f g n r c) v := by
  have hterm (k : Nat) (sum : Int32) (v' : ω) (hk : k < n) (hsum : sum = product f g k r c ∧ v' = v) :
      ∃ sum' v'', B.Match (do accumulate sum (← a.get r k) (← b.get k c))
        (do return sum + (← a'.get r k) * (← b'.get k c)) v' sum' v'' ∧
        sum' = product f g (k + 1) r c ∧ v'' = v := by
    obtain ⟨rfl, rfl⟩ := hsum
    have hadd := haccumulate _ _ _ _ v' (h.addProduct_eq hr hc hk)
    rw [product_succ] at hadd ⊢
    refine ⟨_, v', B.match_bind (ha.get v' r k hv hr hk) ?_, rfl, rfl⟩
    exact B.match_bind (hb.get v' k c hv hk hc) hadd
  unfold dotBy
  rw [ha.columns, ha.columns']
  obtain ⟨sum, v', hmatch, rfl, rfl⟩ := B.exists_foldlM hterm ⟨rfl, rfl⟩
  exact hmatch

/-- Words are multiplied and added as if they were integers. -/
theorem exists_match_multiplyBy (ha : Alike B Q n f a a') (hb : Alike B Q n g b b')
    (hout : Writable B Q n out out') (h : Exact f g n)
    (haccumulate : ∀ sum x y z v, addProduct sum x y = .ok z →
      B.Match (accumulate sum x y) (pure z) v z v)
    {onRow : Nat → m Unit} {onRow' : Nat → m' Unit}
    (hrow : ∀ r v, Q v → B.Match (onRow r) (onRow' r) v () v) (hv : Q v) :
    ∃ v', B.Match (multiplyBy accumulate a b out onRow) (multiply a' b' out' onRow') v () v' ∧ Q v' := by
  rw [multiply_eq_multiplyBy]
  let plain (sum x y : Int32) : m' Int32 := pure (sum + x * y)
  have hcell {r : Nat} (hr : r < n) (c : Nat) (v : ω) (hc : c < n) (hv : Q v) :
      ∃ v', B.Match (dotBy accumulate a b r c >>= out.set r c) (dotBy plain a' b' r c >>= out'.set r c)
        v () v' ∧ Q v' := by
    obtain ⟨v', hset, hv'⟩ := hout v r c (product f g n r c) hv hr hc
    exact ⟨v', B.match_bind (match_dotBy ha hb h haccumulate hv hr hc) hset, hv'⟩
  have hline (r : Nat) (v : ω) (hr : r < n) (hv : Q v) :
      ∃ v', B.Match (do
        (List.range n).forM fun c => dotBy accumulate a b r c >>= out.set r c
        onRow r) (do
        (List.range n).forM fun c => dotBy plain a' b' r c >>= out'.set r c
        onRow' r) v () v' ∧ Q v' := by
    obtain ⟨v', hcells, hv'⟩ := B.exists_forM (hcell hr) hv
    exact ⟨v', B.match_bind hcells (hrow r v' hv'), hv'⟩
  unfold multiplyBy
  rw [ha.rows, ha.rows', hb.columns, hb.columns']
  exact B.exists_forM hline hv

end By

end Matrix

namespace HeapMatrix

variable {a b out : HeapMatrix} {n : Nat}

/-- The product of two matrices, written over `out`; refused where an intermediate result is not the
value of a word. -/
def multiplyChecked (left right out : HeapMatrix) : Except Panic HeapMatrix := do
  Matrix.conforming (left.rows, left.columns) (right.rows, right.columns)
  let product ← (Matrix.multiplyBy (fun sum x y => StateT.lift (Matrix.addProduct sum x y)) left.view
    right.view (currentOver (Except Panic) out.rows out.columns) fun _ => return ()).run out
  return product.2

theorem alike_view (hrows : a.rows = n) (hcolumns : a.columns = n) :
    Matrix.Alike (.passing Panic HeapMatrix) (fun _ => True) n a.get a.view a.view where
  rows := hrows
  columns := hcolumns
  rows' := hrows
  columns' := hcolumns
  get _ _ _ _ _ _ := ⟨rfl, rfl⟩

/-- Products that do not wrap are not refused. -/
theorem multiplyChecked_eq (hrows : a.rows = n) (hcolumns : a.columns = n) (hrows' : b.rows = n)
    (hcolumns' : b.columns = n) (h : Matrix.Exact a.get b.get n) :
    a.multiplyChecked b out = a.multiply b out := by
  have hwritable : Matrix.Writable (.passing Panic HeapMatrix) (fun _ => True) n
      (currentOver (Except Panic) out.rows out.columns) (current out.rows out.columns) :=
    fun v r c x _ _ _ => ⟨v.set r c x, ⟨rfl, rfl⟩, trivial⟩
  have haccumulate (sum x y z : Int32) (v : HeapMatrix) (hz : Matrix.addProduct sum x y = .ok z) :
      (Comparison.passing Panic HeapMatrix).Match (StateT.lift (Matrix.addProduct sum x y)) (pure z)
        v z v :=
    ⟨by rw [hz]; rfl, rfl⟩
  obtain ⟨d, ⟨hchecked, hplain⟩, -⟩ := Matrix.exists_match_multiplyBy (alike_view hrows hcolumns)
    (alike_view hrows' hcolumns') hwritable h haccumulate
    (fun r v _ => Comparison.match_pure _ () v) (show True from trivial)
  unfold multiplyChecked multiply
  rw [hchecked, hplain]
  rfl

end HeapMatrix

end DemandPaging
