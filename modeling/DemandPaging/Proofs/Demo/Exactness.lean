import DemandPaging.Proofs.Demo.Oversize
import DemandPaging.Proofs.Matrix.Exact
import DemandPaging.Proofs.Process.Survival

/-!
# The demo does not wrap

The elements of the first two matrices are drawn, so they are small. Three matrices that fit into the
range have rows so short that no sum of products leaves the range of a word. A run with checked
arithmetic therefore does the same as the run itself, on every host, and the third matrix is the
product in integers.
-/

namespace DemandPaging.Demo

open Step Console DemandPaging.Matrix

variable {host : Host} {o : Options} {c c' : Console} {v : View} {n : Nat} {a b result t : Twins}

/-! ## The run with checked arithmetic -/

/-- Multiply both matrices into `result`, in both memories, and panic where an intermediate result is
not the value of a word. -/
def multiplyTwinsChecked (host : Host) (a b result : Twins) : Step Console Twins := do
  let left := view host a.paged
  let right := view host b.paged
  Step.ofChecked (Matrix.conforming left.shape right.shape)
  multiplyBy (fun sum x y => Step.ofChecked (addProduct sum x y)) left right
    (view host result.paged) fun _ => print "."
  printLine ""
  let heap ← Step.ofChecked (a.heap.multiplyChecked b.heap result.heap)
  return { result with heap }

/-- Multiply two matrices into the third, with checked arithmetic. -/
def computeChecked (host : Host) (a b result : Twins) : Step Console Twins := do
  printLine "Multiplying the matrices together"
  printLine " * Printing one dot per row in result matrix.\n"
  multiplyTwinsChecked host a b result

/-- What a run does with its matrices, with checked arithmetic. -/
def proceedChecked (host : Host) : Option (Twins × Twins × Twins) → Step Console Verdict
  | none => return .tooLarge
  | some (a, b, result) => do conclude host a b (← computeChecked host a b result)

/-- Run the demo with checked arithmetic. -/
def runChecked (host : Host) (o : Options) : Step Console Verdict := do
  proceedChecked host (← prepare host o)

/-! ## What is known on every host -/

/-- On every host a console is followed as far as its steps run to their ends. -/
theorem Console.serves_partly (host : Host) : Console.Serves host (.partly Console.Shows) where
  of_refines := Refines.admits
  process := ⟨_, UserProcess.serves_partly host, admits_run⟩

/-- Once there is room for three matrices, two of them are filled. -/
theorem ensures_prepare (host : Host) (o : Options) (c : Console) :
    (prepare host o).Ensures c (fun stocked c' => ∃ v, Console.Shows c' v ∧ Stock o.size v stocked)
      fun _ _ => True := by
  refine (ensures_start host o c).bind ?_
  rintro _ c₁ ⟨v, hshows, hused⟩
  by_cases hsize : Overlong o.size
  · exact (ensures_stock_of_overlong hsize host c₁).mono nofun fun _ _ _ => trivial
  obtain ⟨stocked, v', hstock, hstocked, -⟩ :=
    exists_stock (Console.serves_partly host) hused hsize
  refine (hstock c₁ hshows).mono ?_ fun _ _ _ => trivial
  rintro _ c₂ ⟨rfl, hshows'⟩
  exact ⟨v', hshows', hstocked⟩

/-- The matrices that fit three times into the range. -/
theorem le_of_fits (h : 2 * Memory.alignUp (matrixBytes n) + matrixBytes n ≤ memorySize) :
    n ≤ 1182 := by
  by_contra! hlarge
  have hsquare := Nat.mul_le_mul hlarge hlarge
  have hle := Memory.le_alignUp (matrixBytes n)
  simp only [matrixBytes, Region.wordSize, memorySize] at *
  omega

/-- The product of two drawn matrices does not wrap, if there is room for a third one. -/
theorem Stocked.exact (h : Stocked n a b result v) (hn : n ≤ 1182) :
    Bounded a.heap.get n ∧ Bounded b.heap.get n ∧ Exact a.heap.get b.heap.get n := by
  have hbounded {d : HeapMatrix} (hd : ∃ s, d.Is n n (drawn s n)) : Bounded d.get n := by
    obtain ⟨s, hs⟩ := hd
    intro r hr c hc
    rw [hs.get_eq r hr c hc]
    exact bounded_drawn s n r hr c hc
  have ha := hbounded h.leftDrawn
  have hb := hbounded h.rightDrawn
  exact ⟨ha, hb, ha.exact hb (by omega)⟩

/-! ## The product -/

/-- Twins that agree are read alike, by whatever arithmetic their elements are combined. -/
theorem Twins.Agree.alike (h : t.Agree n v) (host : Host) (ht : result.Laid n v)
    (hapart : t.paged.region.Apart result.paged.region) :
    Alike (.agreeing Console.Shows) (v.Within result.paged.region) n t.heap.get (view host t.paged)
      (view host t.paged) where
  rows := h.rows
  columns := h.columns
  rows' := h.rows
  columns' := h.columns
  get v r c hv hr hc :=
    ⟨h.offers (Console.serves_partly host) ht hapart v r c hv (hr.trans_eq h.rows.symm)
      (hc.trans_eq h.columns.symm), fun s _ => .refl _ s⟩

/-- The product is the same with checked arithmetic. -/
theorem agree_computeChecked (hc : Console.Shows c v) (h : Stocked n a b result v)
    (hexact : Exact a.heap.get b.heap.get n) :
    Agree (computeChecked host a b result) (compute host a b result) c := by
  have hconforming : conforming (view host a.paged).shape (view host b.paged).shape = .ok () :=
    if_pos (h.left.columns.trans h.right.rows.symm)
  have hwritable : Writable (.agreeing Console.Shows) (v.Within result.paged.region) n
      (view host result.paged) (view host result.paged) := by
    intro v' r c x hv' hr hc
    obtain ⟨v'', hset, hv'', -⟩ := (Console.serves_partly host).stores_view h.out.fits v' r c x hv'
      (hr.trans_eq h.out.rows.symm) (hc.trans_eq h.out.columns.symm)
    exact ⟨v'', ⟨hset, fun s _ => .refl _ s⟩, hv''⟩
  have haccumulate (sum x y z : Int32) (v' : View) (hz : addProduct sum x y = .ok z) :
      (Comparison.agreeing Console.Shows).Match (Step.ofChecked (addProduct sum x y)) (pure z)
        v' z v' :=
    ⟨Admits.pure z v', fun s _ => by rw [hz]; exact .refl _ s⟩
  have hdot (r : Nat) (v' : View) (_ : v.Within result.paged.region v') :
      (Comparison.agreeing Console.Shows).Match (print ".") (print ".") v' () v' :=
    ⟨(refines_print "." v').admits, fun s _ => .refl _ s⟩
  obtain ⟨v', ⟨-, hproduct⟩, -⟩ := exists_match_multiplyBy (h.left.alike host h.out h.leftApart)
    (h.right.alike host h.out h.rightApart) hwritable hexact haccumulate hdot (.refl v _)
  have hheap : a.heap.multiplyChecked b.heap result.heap = a.heap.multiply b.heap result.heap :=
    HeapMatrix.multiplyChecked_eq h.left.heapRows h.left.heapColumns h.right.heapRows
      h.right.heapColumns hexact
  unfold computeChecked compute multiplyTwinsChecked multiplyTwins
  rw [hheap]
  refine (yields_printLine _ c).agree_bind ((yields_printLine _ _).agree_bind ?_)
  refine (yields_ofChecked hconforming _).agree_bind ((hproduct _ ?_).bind _)
  exact hc

/-- The matrix in managed memory is read with the elements of the one in ordinary memory. -/
def Twins.Readable (t : Twins) (host : Host) (n : Nat) (c : Console) : Prop :=
  ∀ r < n, ∀ k < n, ((view host t.paged).get r k).Ensures c (fun x _ => x = t.heap.get r k)
    fun _ _ => True

theorem Twins.Agree.readable (h : t.Agree n v) (host : Host) (hc : Console.Shows c v) :
    t.Readable host n c := by
  intro r hr k hk
  have hget := h.offers_self (Console.serves_partly host) v r k rfl (hr.trans_eq h.rows.symm)
    (hk.trans_eq h.columns.symm)
  exact (hget c hc).mono (fun _ _ hx => hx.1) fun _ _ _ => trivial

/-- The third matrix becomes the product in integers, if the host lets the run come that far. -/
theorem ensures_compute (hc : Console.Shows c v) (h : Stocked n a b result v)
    (hexact : Exact a.heap.get b.heap.get n) :
    (compute host a b result).Ensures c (fun product c' => product.Readable host n c' ∧
      ∀ r < n, ∀ k < n, (product.heap.get r k).toInt = exactSum a.heap.get b.heap.get n r k)
      fun _ _ => True := by
  obtain ⟨d, v', hcompute, -, -, hagree, his, -⟩ := exists_compute (Console.serves_partly host) h
  refine (hcompute c hc).mono ?_ fun _ _ _ => trivial
  rintro _ c' ⟨rfl, hc'⟩
  refine ⟨hagree.readable host hc', fun r hr k hk => ?_⟩
  change (d.get r k).toInt = _
  rw [his.get_eq r hr k hk]
  exact hexact.toInt_product hr hk (Nat.le_refl n)

/-- On a host that refuses nothing, matrices that fit are multiplied. -/
theorem exists_product (hh : host.Hospitable) (hlow : 1 ≤ o.budget) (hhigh : o.budget ≤ pageCount)
    (hfits : 2 * Memory.alignUp (matrixBytes o.size) + matrixBytes o.size ≤ memorySize)
    (hidle : c.process.active = none) (hnone : c.process.pagers = []) (journal : Array Event) :
    ∃ a b result t product t', prepare host o ⟨c, journal⟩ = .ok (some (a, b, result)) t ∧
      compute host a b result t = .ok product t' := by
  obtain ⟨stocked, c₁, es₁, v, pager, hprepare, hshows, hstocked, -⟩ :=
    exists_prepare hh hlow hhigh (not_overlong_of_fits hfits) hidle hnone
  cases hstocked with
  | full hfull => exact absurd hfits (Nat.not_le.mpr hfull)
  | @filled a b result _ h =>
    obtain ⟨d, v', hcompute, -⟩ := exists_compute (Console.serves_step hh.toObliging) h
    obtain ⟨c₂, es₂, hcompute, -⟩ := hcompute c₁ hshows
    exact ⟨a, b, result, _, _, _, hprepare journal, hcompute (journal ++ es₁)⟩

/-- On every host and with all settings, a run does the same if it panics where the result of an
operation on elements is not the value of a word. The reason is that with room for three matrices
the rows have at most 1182 elements, all of them drawn; from there on all products and sums are in
range, and the third matrix is the product in integers. On a host that refuses nothing, the run comes
to the product whenever three matrices fit. -/
theorem run_never_wraps (host : Host) (o : Options) (c : Console) :
    Agree (runChecked host o) (run host o) c ∧
    (∀ journal a b result t, prepare host o ⟨c, journal⟩ = .ok (some (a, b, result)) t →
      run host o ⟨c, journal⟩ = proceed host (some (a, b, result)) t ∧
      o.size ≤ 1182 ∧
      Bounded a.heap.get o.size ∧ a.Readable host o.size t.state ∧
      Bounded b.heap.get o.size ∧ b.Readable host o.size t.state ∧
      Exact a.heap.get b.heap.get o.size ∧
      (compute host a b result).Ensures t.state (fun product c' => product.Readable host o.size c' ∧
        ∀ r < o.size, ∀ k < o.size,
          (product.heap.get r k).toInt = exactSum a.heap.get b.heap.get o.size r k)
        fun _ _ => True) ∧
    (host.Hospitable → 1 ≤ o.budget → o.budget ≤ pageCount →
      2 * Memory.alignUp (matrixBytes o.size) + matrixBytes o.size ≤ memorySize →
      c.process.active = none → c.process.pagers = [] →
      ∀ journal, ∃ a b result t product t',
        prepare host o ⟨c, journal⟩ = .ok (some (a, b, result)) t ∧
        compute host a b result t = .ok product t') := by
  have hprepare := ensures_prepare host o c
  refine ⟨?_, fun journal a b result t hrun => ?_, exists_product⟩
  · rw [run_eq]
    refine hprepare.agree_bind ?_
    rintro _ c' ⟨v, hc', hstock⟩
    cases hstock with
    | full _ => exact .refl _ c'
    | filled hfits h =>
      exact (agree_computeChecked hc' h (h.exact (le_of_fits hfits)).2.2).bind _
  · obtain ⟨v, hc', hstock⟩ := hprepare.of_ok hrun
    cases hstock with
    | filled hfits h =>
      have hsize := le_of_fits hfits
      obtain ⟨ha, hb, hexact⟩ := h.exact hsize
      refine ⟨?_, hsize, ha, h.left.readable host hc', hb, h.right.readable host hc', hexact,
        ensures_compute hc' h hexact⟩
      rw [run_eq]
      change EStateM.bind _ _ _ = _
      rw [EStateM.bind, hrun]

/-- The largest matrices that fit, with a budget of one page. -/
theorem run_never_wraps_largest : Host.willing.Hospitable ∧ ∃ a b result t product t',
    let c : Console := { process := { timing := [0, 2, 1] } }
    prepare .willing ⟨7, 1, .random, 1182⟩ ⟨c, #[]⟩ = .ok (some (a, b, result)) t ∧
    compute .willing a b result t = .ok product t' ∧
    Exact a.heap.get b.heap.get 1182 ∧
    ∀ r < 1182, ∀ k < 1182,
      (product.heap.get r k).toInt = exactSum a.heap.get b.heap.get 1182 r k := by
  obtain ⟨-, hexact, hproduct⟩ := run_never_wraps .willing ⟨7, 1, .random, 1182⟩
    { process := { timing := [0, 2, 1] } }
  obtain ⟨a, b, result, t, product, t', hprepare, hcompute⟩ := hproduct Host.hospitable_willing
    (by decide) (by decide) (by decide) rfl rfl #[]
  obtain ⟨-, -, -, -, -, -, hexact, hensures⟩ := hexact #[] a b result t hprepare
  exact ⟨Host.hospitable_willing, a, b, result, t, product, t', hprepare, hcompute, hexact,
    (hensures.of_ok hcompute).2⟩

end DemandPaging.Demo
