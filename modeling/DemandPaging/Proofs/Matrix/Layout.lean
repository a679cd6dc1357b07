import DemandPaging.Proofs.Matrix.Elements
import DemandPaging.Proofs.Process.Isolation

/-!
# Matrices in both kinds of memory

A matrix keeps its elements row by row, in an array of ordinary memory or in a
region of managed memory. In both of them different places have different
numbers, so that a store replaces one element; in managed memory the store is also
unseen outside the region (`View.Within`), whatever is loaded or evicted for it.
-/

namespace DemandPaging

variable {host : Host} {rows columns r c i j : Nat} {x : Int32}

namespace Matrix

/-- A place of a matrix has a number. -/
theorem number_lt (hr : r < rows) (hc : c < columns) : r * columns + c < rows * columns := by
  have hrow := Nat.mul_le_mul_right columns (Nat.succ_le_of_lt hr)
  rw [Nat.succ_mul] at hrow
  omega

/-- Different places have different numbers. -/
theorem number_inj (hc : c < columns) (hj : j < columns) :
    i * columns + j = r * columns + c ↔ i = r ∧ j = c := by
  constructor
  · intro h
    obtain hlt | rfl | hgt := Nat.lt_trichotomy i r
    · have hrow := number_lt hlt hj
      omega
    · exact ⟨rfl, Nat.add_left_cancel h⟩
    · have hrow := number_lt hgt hc
      omega
  · rintro ⟨rfl, rfl⟩
    rfl

end Matrix

/-! ## Ordinary memory -/

namespace HeapMatrix

variable {m : Type → Type} [Monad m] {ω : Type} {A : Account m ω} {a b out : HeapMatrix}

/-- The matrix has this shape and these elements. -/
structure Is (a : HeapMatrix) (rows columns : Nat) (f : Nat → Nat → Int32) : Prop where
  /-- The number of rows. -/
  rows_eq : a.rows = rows
  /-- The number of columns. -/
  columns_eq : a.columns = columns
  /-- The elements. -/
  get_eq : ∀ r < rows, ∀ c < columns, a.get r c = f r c

/-- An element that is replaced in the stored ones. -/
theorem getD_setElement (stored : Array Int32) (n k : Nat) (x : Int32) :
    (setElement stored n x).getD k 0 = if k = n then x else stored.getD k 0 := by
  simp only [setElement, Array.getD_eq_getD_getElem?]
  split <;> grind

/-- An element is replaced and the others stay. -/
theorem get_set (a : HeapMatrix) (hc : c < a.columns) (hj : j < a.columns) (x : Int32) :
    (a.set r c x).get i j = if i = r ∧ j = c then x else a.get i j := by
  simp only [← Matrix.number_inj hc hj]
  exact getD_setElement a.stored _ _ x

/-- The matrix that is the state above the monad `m`. -/
def currentOver (m : Type → Type) [Monad m] (rows columns : Nat) : Matrix (StateT HeapMatrix m) where
  rows := rows
  columns := columns
  get r c := return (← getThe HeapMatrix).get r c
  set r c x := modify (·.set r c x)

/-- A matrix that is only read offers its elements in all states. -/
theorem offers_view (a : HeapMatrix) (Q : ω → Prop) : (a.view : Matrix m).Offers A Q a.get :=
  fun _ _ _ _ _ _ => A.does_pure _ _

theorem stores_currentOver (A : Account m ω) (rows columns : Nat) (w : ω) :
    (currentOver m rows columns).Stores (A.withState HeapMatrix)
      (fun v => v.2 = w ∧ v.1.rows = rows ∧ v.1.columns = columns) fun v => v.1.get := by
  rintro ⟨a, _⟩ r c x ⟨rfl, rfl, rfl⟩ hr hc
  refine ⟨(a.set r c x, _), A.does_modify _ _, ⟨rfl, rfl, rfl⟩, fun i j hi hj => ?_⟩
  exact a.get_set hc hj x

/-- The matrices in ordinary memory are those above no monad at all. -/
theorem stores_current (rows columns : Nat) :
    (current rows columns).Stores (Account.value.withState HeapMatrix)
      (fun v => v.2 = () ∧ v.1.rows = rows ∧ v.1.columns = columns) fun v => v.1.get :=
  stores_currentOver Account.value rows columns ()

/-- A generated matrix has the elements that were drawn. -/
theorem generate_spec (a : HeapMatrix) (s : Random.Stream) :
    ∃ d, a.generate s = (Matrix.undrawn s (a.rows * a.columns), d) ∧
      d.Is a.rows a.columns (Matrix.drawn s a.columns) := by
  obtain ⟨v, hdoes, ⟨-, hrows, hcolumns⟩, helements⟩ :=
    Matrix.exists_generate (stores_current a.rows a.columns) s (v := (a, ())) ⟨rfl, rfl, rfl⟩
  exact ⟨v.1, hdoes, hrows, hcolumns, helements⟩

/-- A copy has the elements of its source. -/
theorem copyTo_spec (hshape : (out.rows, out.columns) = (a.rows, a.columns)) :
    ∃ d, a.copyTo out = .ok d ∧ d.Is a.rows a.columns a.get := by
  obtain ⟨v, hdoes, ⟨-, hrows, hcolumns⟩, helements⟩ :=
    Matrix.exists_copy (a.offers_view _) (stores_current out.rows out.columns) hshape
      (v := (out, ())) ⟨rfl, rfl, rfl⟩
  refine ⟨v.1, ?_, hrows.trans (congrArg Prod.fst hshape),
    hcolumns.trans (congrArg Prod.snd hshape), helements⟩
  rw [copyTo, Matrix.copyable, if_pos hshape.symm]
  exact congrArg (fun y => Except.ok y.2) hdoes

/-- A product has the products of rows and columns as its elements. -/
theorem multiply_spec (hinner : a.columns = b.rows)
    (hshape : (out.rows, out.columns) = (a.rows, b.columns)) :
    ∃ d, a.multiply b out = .ok d ∧
      d.Is a.rows b.columns (Matrix.product a.get b.get a.columns) := by
  obtain ⟨v, hdoes, ⟨-, hrows, hcolumns⟩, helements⟩ :=
    Matrix.exists_multiply (a.offers_view _) (b.offers_view _)
      (stores_current out.rows out.columns) hinner hshape
      (fun _ => return ()) (fun _ v _ => Account.does_pure _ () v)
      (v := (out, ())) ⟨rfl, rfl, rfl⟩
  refine ⟨v.1, ?_, hrows.trans (congrArg Prod.fst hshape),
    hcolumns.trans (congrArg Prod.snd hshape), helements⟩
  rw [multiply, Matrix.conforming, if_pos hinner]
  exact congrArg (fun y => Except.ok y.2) hdoes

end HeapMatrix

/-! ## Managed memory -/

namespace Region

/-- The position at which the region starts in the range. -/
def position (r : Region) (range : Range) : Nat := r.start.toNat - range.base.toNat

/-- Two regions have no byte in common. -/
def Apart (r r' : Region) : Prop :=
  r.start.toNat + r.length ≤ r'.start.toNat ∨ r'.start.toNat + r'.length ≤ r.start.toNat

theorem Lies.position_eq {r : Region} {range : Range} {k : Nat} (h : r.Lies range k) :
    r.position range = k := by
  rw [position, h.start, Nat.add_sub_cancel_left]

end Region

namespace View

variable {v v' v'' : View} {r r' : Region}

/-- `v'` differs from `v` at most in the bytes of the region `r`. -/
structure Within (v : View) (r : Region) (v' : View) : Prop where
  /-- The range is the same. -/
  range : v'.range = v.range
  /-- The same bytes are in use. -/
  used : v'.used = v.used
  /-- The same regions were handed out. -/
  regions : v'.regions = v.regions
  /-- The program holds the same pagers. -/
  pagers : v'.pagers = v.pagers
  /-- The bytes outside the region are the same. -/
  bytes : ∀ j, j < r.position v.range ∨ r.position v.range + r.length ≤ j → v'.bytes j = v.bytes j

theorem Within.refl (v : View) (r : Region) : v.Within r v := ⟨rfl, rfl, rfl, rfl, fun _ _ => rfl⟩

theorem Within.trans (h : v.Within r v') (h' : v'.Within r v'') : v.Within r v'' where
  range := h'.range.trans h.range
  used := h'.used.trans h.used
  regions := h'.regions.trans h.regions
  pagers := h'.pagers.trans h.pagers
  bytes j hj := (h'.bytes j (h.range.symm ▸ hj)).trans (h.bytes j hj)

end View

namespace PagedMatrix

open UserProcess

variable {a b : PagedMatrix} {v v₀ v' : View} {range : Range} {Q : View → Prop}
  {f : Nat → Nat → Int32}

/-- The matrix has room in its region, which lies in the range. -/
structure Fits (a : PagedMatrix) (range : Range) : Prop where
  /-- The region lies in the range. -/
  lies : a.region.Lies range (a.region.position range)
  /-- The region has room for all elements. -/
  room : a.rows * a.columns * Region.wordSize ≤ a.region.length

/-- The position of an element. -/
def position (a : PagedMatrix) (range : Range) (r c : Nat) : Nat :=
  a.region.position range + (r * a.columns + c) * Region.wordSize

/-- The element that a view has in a row and a column. -/
def element (a : PagedMatrix) (v : View) (r c : Nat) : Int32 :=
  (v.word (a.position v.range r c)).toInt32

/-- An element lies inside the region. -/
theorem Fits.inside (h : a.Fits range) (hr : r < a.rows) (hc : c < a.columns) :
    (r * a.columns + c) * Region.wordSize + Region.wordSize ≤ a.region.length := by
  have hroom := h.room
  have hlt := Matrix.number_lt hr hc
  simp only [Region.wordSize] at *
  omega

/-- What is changed in another region does not show. -/
theorem Fits.element_of_within (ha : a.Fits v.range) (hb : b.Fits v.range)
    (hapart : a.region.Apart b.region) (h : v.Within b.region v') (hr : r < a.rows)
    (hc : c < a.columns) : a.element v' r c = a.element v r c := by
  have hinside := ha.inside hr hc
  have hstart := ha.lies.start
  have hstart' := hb.lies.start
  rw [element, element, h.range]
  refine congrArg UInt32.toInt32 (Word.ofBytes_congr fun k hk => h.bytes _ ?_)
  simp only [Region.Apart, position, Region.wordSize] at *
  omega

variable {A : Account (Step UserProcess) View}

/-- An element is read. -/
theorem Fits.does_get (hA : Serves host A) (h : a.Fits v.range) (hr : r < a.rows)
    (hc : c < a.columns) : A.Does ((a.shared host).get r c) v (a.element v r c) v :=
  hA.does_readWord h.lies (h.inside hr hc)

/-- An element is replaced, and nothing else. -/
theorem Fits.exists_set (hA : Serves host A) (h : a.Fits v.range) (hr : r < a.rows)
    (hc : c < a.columns) (x : Int32) :
    ∃ v', A.Does ((a.shared host).set r c x) v () v' ∧ v.Within a.region v' ∧
      Matrix.Replaces a.element a.rows a.columns v v' r c x := by
  refine ⟨_, hA.does_writeWord h.lies (h.inside hr hc) x, ⟨rfl, rfl, rfl, rfl, ?_⟩, ?_⟩
  · intro j hj
    have hinside := h.inside hr hc
    refine if_neg ?_
    simp only [Region.wordSize] at *
    omega
  · intro i j hi hj
    simp only [← Matrix.number_inj hc hj, element, position, FlatMemory.range_storeWord]
    split
    · next heq =>
      rw [heq, FlatMemory.word_storeWord_self]
      exact Int32.toInt32_toUInt32 x
    · next hne =>
      rw [FlatMemory.word_storeWord_of_apart]
      simp only [Region.wordSize]
      omega

/-- The elements of a matrix are read as long as they do not change. -/
theorem offers_shared (hA : Serves host A)
    (hQ : ∀ v, Q v → a.Fits v.range ∧ ∀ r < a.rows, ∀ c < a.columns, a.element v r c = f r c) :
    (a.shared host).Offers A Q f := by
  intro v r c hv hr hc
  obtain ⟨hfits, helements⟩ := hQ v hv
  rw [← helements r hr c hc]
  exact hfits.does_get hA hr hc

/-- The elements of a matrix are replaced while the rest of the view stays. -/
theorem Fits.stores_shared (hA : Serves host A) (h : a.Fits v₀.range) :
    (a.shared host).Stores A (v₀.Within a.region) a.element := by
  intro v r c x hv hr hc
  have hfits : a.Fits v.range := hv.range.symm ▸ h
  obtain ⟨v', hset, hwithin, hreplaces⟩ := hfits.exists_set hA hr hc x
  exact ⟨v', hset, hv.trans hwithin, hreplaces⟩

end PagedMatrix

end DemandPaging
