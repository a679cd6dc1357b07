import Mathlib.Algebra.BigOperators.Group.Finset.Basic
import DemandPaging.Proofs.Matrix.Account

/-!
# Matrices by their elements

What the definitions on matrices do depends on the elements alone, whichever
memory keeps them. `Offers` says which elements a matrix has in some states, and
`Stores` that an element can be replaced without a change to the others. The
loops go through the elements row by row; `Filled` says which part of the target
is done.
-/

namespace DemandPaging.Matrix

variable {m : Type → Type} [Monad m] {ω : Type} {A : Account m ω} {Q : ω → Prop}
  {a b out : Matrix m} {f g value : Nat → Nat → Int32} {element : ω → Nat → Nat → Int32}
  {v v' : ω} {rows columns r c : Nat}

/-- In the states of `Q` the elements of the matrix are those of `f`. -/
def Offers (a : Matrix m) (A : Account m ω) (Q : ω → Prop) (f : Nat → Nat → Int32) : Prop :=
  ∀ v r c, Q v → r < a.rows → c < a.columns → A.Does (a.get r c) v (f r c) v

/-- `v'` has the element `x` in row `r` and column `c`, and the elements of `v` at all other
places. -/
def Replaces (element : ω → Nat → Nat → Int32) (rows columns : Nat) (v v' : ω) (r c : Nat)
    (x : Int32) : Prop :=
  ∀ i j, i < rows → j < columns → element v' i j = if i = r ∧ j = c then x else element v i j

/-- In the states of `Q` an element of the matrix can be replaced. -/
def Stores (a : Matrix m) (A : Account m ω) (Q : ω → Prop) (element : ω → Nat → Nat → Int32) : Prop :=
  ∀ v r c x, Q v → r < a.rows → c < a.columns →
    ∃ v', A.Does (a.set r c x) v () v' ∧ Q v' ∧ Replaces element a.rows a.columns v v' r c x

/-- The elements up to column `c` of row `r`, row by row, are those of `value`. -/
def Filled (element : ω → Nat → Nat → Int32) (value : Nat → Nat → Int32) (rows columns r c : Nat)
    (v : ω) : Prop :=
  ∀ i j, i < rows → j < columns → i < r ∨ i = r ∧ j < c → element v i j = value i j

/-- At first there is nothing to do. -/
theorem filled_zero (v : ω) : Filled element value rows columns 0 0 v := by
  intro i j _ _ hbefore
  omega

/-- The next element of the row is done. -/
theorem Filled.replaces (h : Filled element value rows columns r c v)
    (hv : Replaces element rows columns v v' r c (value r c)) :
    Filled element value rows columns r (c + 1) v' := by
  intro i j hi hj hbefore
  rw [hv i j hi hj]
  split
  · next heq => rw [heq.1, heq.2]
  · exact h i j hi hj (by omega)

/-- After the last element of a row comes the first of the next one. -/
theorem Filled.row (h : Filled element value rows columns r columns v) :
    Filled element value rows columns (r + 1) 0 v := by
  intro i j hi hj hbefore
  exact h i j hi hj (by omega)

/-- After the last row all is done. -/
theorem Filled.eq (h : Filled element value rows columns rows 0 v) :
    ∀ r < rows, ∀ c < columns, element v r c = value r c := fun r hr c hc =>
  h r c hr hc (Or.inl hr)

/-! ## Copies -/

/-- Every element of the target is replaced by the one of the source at its place. -/
theorem exists_copy (ha : a.Offers A Q f) (hout : out.Stores A Q element)
    (hshape : out.shape = a.shape) (hv : Q v) :
    ∃ v', A.Does (a.copy out) v () v' ∧ Q v' ∧
      ∀ r < a.rows, ∀ c < a.columns, element v' r c = f r c := by
  have hrows : out.rows = a.rows := congrArg Prod.fst hshape
  have hcolumns : out.columns = a.columns := congrArg Prod.snd hshape
  have hcell {r : Nat} (hr : r < a.rows) (c : Nat) (v : ω) (hc : c < a.columns)
      (h : Q v ∧ Filled element f a.rows a.columns r c v) :
      ∃ v', A.Does (a.get r c >>= out.set r c) v () v' ∧
        Q v' ∧ Filled element f a.rows a.columns r (c + 1) v' := by
    obtain ⟨v', hset, hv', hreplaced⟩ := hout v r c (f r c) h.1 (hrows ▸ hr) (hcolumns ▸ hc)
    rw [hrows, hcolumns] at hreplaced
    exact ⟨v', A.does_bind (ha v r c h.1 hr hc) hset, hv', h.2.replaces hreplaced⟩
  have hrow (r : Nat) (v : ω) (hr : r < a.rows)
      (h : Q v ∧ Filled element f a.rows a.columns r 0 v) :
      ∃ v', A.Does ((List.range a.columns).forM fun c => a.get r c >>= out.set r c) v () v' ∧
        Q v' ∧ Filled element f a.rows a.columns (r + 1) 0 v' := by
    obtain ⟨v', hdoes, hv', hfilled⟩ := A.exists_forM (hcell hr) h
    exact ⟨v', hdoes, hv', hfilled.row⟩
  obtain ⟨v', hdoes, hv', hfilled⟩ := A.exists_forM hrow ⟨hv, filled_zero v⟩
  exact ⟨v', hdoes, hv', hfilled.eq⟩

/-! ## Drawn elements -/

/-- What is left of a stream after so many draws of an element. -/
def undrawn (s : Random.Stream) : Nat → Random.Stream
  | 0 => s
  | k + 1 => (drawElement (undrawn s k)).2

/-- The element that is drawn for a place of a matrix with so many columns. -/
def drawn (s : Random.Stream) (columns r c : Nat) : Int32 :=
  (drawElement (undrawn s (r * columns + c))).1

/-- Every element is replaced by the one that is drawn for its place. -/
theorem exists_generate (hout : out.Stores A Q element) (s : Random.Stream) (hv : Q v) :
    ∃ v', A.Does (out.generate s) v (undrawn s (out.rows * out.columns)) v' ∧ Q v' ∧
      ∀ r < out.rows, ∀ c < out.columns, element v' r c = drawn s out.columns r c := by
  -- the stream goes along with the places: it is where the draws before this place left it
  let P (r c : Nat) (left : Random.Stream) (v : ω) : Prop := left = undrawn s (r * out.columns + c) ∧
    Q v ∧ Filled element (drawn s out.columns) out.rows out.columns r c v
  have hcell {r : Nat} (hr : r < out.rows) (c : Nat) (left : Random.Stream) (v : ω)
      (hc : c < out.columns) (h : P r c left v) :
      ∃ left' v', A.Does (do
        let draw := drawElement left
        out.set r c draw.1
        return draw.2) v left' v' ∧ P r (c + 1) left' v' := by
    obtain ⟨rfl, hv, hfilled⟩ := h
    obtain ⟨v', hset, hv', hreplaced⟩ := hout v r c (drawn s out.columns r c) hv hr hc
    exact ⟨_, v', A.does_bind hset (A.does_pure _ v'), rfl, hv', hfilled.replaces hreplaced⟩
  have hrow (r : Nat) (left : Random.Stream) (v : ω) (hr : r < out.rows) (h : P r 0 left v) :
      ∃ left' v', A.Does ((List.range out.columns).foldlM (fun left c => do
        let draw := drawElement left
        out.set r c draw.1
        return draw.2) left) v left' v' ∧ P (r + 1) 0 left' v' := by
    obtain ⟨left', v', hdoes, hleft, hv', hfilled⟩ := A.exists_foldlM (hcell hr) h
    refine ⟨left', v', hdoes, ?_, hv', hfilled.row⟩
    rw [hleft, Nat.succ_mul, Nat.add_zero]
  have hstart : P 0 0 s v := ⟨by rw [Nat.zero_mul]; rfl, hv, filled_zero v⟩
  obtain ⟨left, v', hdoes, rfl, hv', hfilled⟩ := A.exists_foldlM hrow hstart
  exact ⟨v', hdoes, hv', hfilled.eq⟩

/-! ## Products -/

/-- The product of the row `r` of `f` and the column `c` of `g`, both of length `n`, as a word. -/
def product (f g : Nat → Nat → Int32) (n r c : Nat) : Int32 :=
  Int32.ofInt (∑ k ∈ Finset.range n, (f r k).toInt * (g k c).toInt)

/-- One more product of two elements is added. -/
theorem product_succ (f g : Nat → Nat → Int32) (n r c : Nat) :
    product f g (n + 1) r c = product f g n r c + f r n * g n c := by
  rw [product, Finset.sum_range_succ, Int32.ofInt_add, Int32.ofInt_mul, Int32.ofInt_toInt,
    Int32.ofInt_toInt]
  rfl

/-- The product of a row and a column is summed up. -/
theorem does_dot (ha : a.Offers A Q f) (hb : b.Offers A Q g) (hinner : a.columns = b.rows)
    (hv : Q v) (hr : r < a.rows) (hc : c < b.columns) :
    A.Does (dot a b r c) v (product f g a.columns r c) v := by
  have hterm (k : Nat) (sum : Int32) (v' : ω) (hk : k < a.columns)
      (h : sum = product f g k r c ∧ v' = v) :
      ∃ sum' v'', A.Does (do return sum + (← a.get r k) * (← b.get k c)) v' sum' v'' ∧
        sum' = product f g (k + 1) r c ∧ v'' = v := by
    obtain ⟨rfl, rfl⟩ := h
    refine ⟨_, v', A.does_bind (ha v' r k hv hr hk) ?_, (product_succ f g k r c).symm, rfl⟩
    exact A.does_bind (hb v' k c hv (hinner ▸ hk) hc) (A.does_pure _ v')
  obtain ⟨sum, v', hdoes, rfl, rfl⟩ := A.exists_foldlM hterm ⟨rfl, rfl⟩
  exact hdoes

/-- Every element of the target is replaced by the product of its row and its column. -/
theorem exists_multiply (ha : a.Offers A Q f) (hb : b.Offers A Q g) (hout : out.Stores A Q element)
    (hinner : a.columns = b.rows) (hshape : out.shape = (a.rows, b.columns))
    (onRow : Nat → m Unit) (hrow : ∀ r v, Q v → A.Does (onRow r) v () v) (hv : Q v) :
    ∃ v', A.Does (multiply a b out onRow) v () v' ∧ Q v' ∧
      ∀ r < a.rows, ∀ c < b.columns, element v' r c = product f g a.columns r c := by
  have hrows : out.rows = a.rows := congrArg Prod.fst hshape
  have hcolumns : out.columns = b.columns := congrArg Prod.snd hshape
  let P (r c : Nat) (v : ω) : Prop :=
    Q v ∧ Filled element (product f g a.columns) a.rows b.columns r c v
  have hcell {r : Nat} (hr : r < a.rows) (c : Nat) (v : ω) (hc : c < b.columns) (h : P r c v) :
      ∃ v', A.Does (dot a b r c >>= out.set r c) v () v' ∧ P r (c + 1) v' := by
    obtain ⟨v', hset, hv', hreplaced⟩ :=
      hout v r c (product f g a.columns r c) h.1 (hrows ▸ hr) (hcolumns ▸ hc)
    rw [hrows, hcolumns] at hreplaced
    exact ⟨v', A.does_bind (does_dot ha hb hinner h.1 hr hc) hset, hv', h.2.replaces hreplaced⟩
  have hline (r : Nat) (v : ω) (hr : r < a.rows) (h : P r 0 v) :
      ∃ v', A.Does (do
        (List.range b.columns).forM fun c => dot a b r c >>= out.set r c
        onRow r) v () v' ∧ P (r + 1) 0 v' := by
    obtain ⟨v', hcells, hv', hfilled⟩ := A.exists_forM (hcell hr) h
    exact ⟨v', A.does_bind hcells (hrow r v' hv'), hv', hfilled.row⟩
  obtain ⟨v', hdoes, hv', hfilled⟩ := A.exists_forM hline ⟨hv, filled_zero v⟩
  exact ⟨v', hdoes, hv', hfilled.eq⟩

/-! ## Comparisons -/

/-- Two matrices are found equal exactly if they have the same shape and the same elements. -/
theorem exists_equal (ha : a.Offers A Q f) (hb : b.Offers A Q g) (hv : Q v) :
    ∃ same, A.Does (equal a b) v same v ∧ (same = true ↔ a.shape = b.shape ∧
      ∀ r < a.rows, ∀ c < a.columns, f r c = g r c) := by
  by_cases hshape : a.shape = b.shape
  · have hrows : a.rows = b.rows := congrArg Prod.fst hshape
    have hcolumns : a.columns = b.columns := congrArg Prod.snd hshape
    refine ⟨(List.range a.rows).all fun r => (List.range a.columns).all fun c => f r c == g r c,
      ?_, ?_⟩
    · unfold equal
      rw [if_pos hshape]
      refine A.does_allM fun r hr => A.does_allM fun c hc => ?_
      rw [List.mem_range] at hr hc
      refine A.does_bind (ha v r c hv hr hc) ?_
      exact A.does_bind (hb v r c hv (hrows ▸ hr) (hcolumns ▸ hc)) (A.does_pure _ v)
    · simp only [List.all_eq_true, List.mem_range, beq_iff_eq, hshape, true_and]
  · refine ⟨false, ?_, ?_⟩
    · unfold equal
      rw [if_neg hshape]
      exact A.does_pure false v
    · simp only [Bool.false_eq_true, hshape, false_and]

end DemandPaging.Matrix
