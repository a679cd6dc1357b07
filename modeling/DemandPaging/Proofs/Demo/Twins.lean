import DemandPaging.Demo.Run
import DemandPaging.Proofs.Matrix.Layout

/-!
# Matrices in both memories

`Twins.Agree` says that a matrix in managed memory has the elements of the one in ordinary memory.
Twins that were filled keep agreeing while the next ones are made, since every region lies behind
the ones before it. The product of twins that agree agrees with the product in ordinary memory,
because both are the product of the same rows and columns.

All of this is said by any account that serves a console: on a host that refuses nothing a step runs
to its end, and on any host it comes out in the same way if it does.
-/

namespace DemandPaging.Demo

open Step Console

variable {host : Host} {α : Type} {a : α} {c : Console} {v v' v₀ : View} {n bytes : Nat}
  {t t' : Twins}

/-! ## The console -/

/-- The process of the console is related to `v`. -/
def Console.Has {ω : Type} (R : UserProcess → ω → Prop) (c : Console) (v : ω) : Prop :=
  R c.process v

/-- The process of the console shows `v`. -/
abbrev Console.Shows : Console → View → Prop := Console.Has UserProcess.Shows

theorem Console.yields_printLine (text : String) (c : Console) :
    (printLine text).Yields c () { c with output := c.output ++ (text ++ "\n") } #[] :=
  yields_update (fun c : Console => { c with output := c.output ++ (text ++ "\n") }) c

section Has

variable {ω : Type} {R : UserProcess → ω → Prop} {q q' : ω}

/-- A step of the process leaves the printed text as it is. -/
theorem Console.yields_run {x : Step UserProcess α} {u : UserProcess} {es : Array Event}
    (hx : x.Yields c.process a u es) : (Console.run x).Yields c a { c with process := u } es := by
  intro journal
  dsimp only [Console.run]
  rw [hx journal]

theorem Console.refines_run {x : Step UserProcess α} (hx : x.Refines R q a q') :
    (Console.run x).Refines (Has R) q a q' := by
  intro c hc
  obtain ⟨u, es, hyields, hu⟩ := hx c.process hc
  exact ⟨{ c with process := u }, es, yields_run hyields, hu⟩

theorem Console.ensures_run {x : Step UserProcess α} {Q : α → UserProcess → Prop}
    {S : Stop → UserProcess → Prop} (hx : x.Ensures c.process Q S) :
    (Console.run x).Ensures c (fun b d => Q b d.process) fun e d => S e d.process := by
  intro journal
  have := hx journal
  dsimp only [Console.run]
  cases hrun : x ⟨c.process, journal⟩ with
  | ok b t =>
    rw [hrun] at this
    exact this
  | error e t =>
    rw [hrun] at this
    exact this

theorem Console.admits_run {x : Step UserProcess α} (hx : x.Admits R q a q') :
    (Console.run x).Admits (Has R) q a q' := fun c hc => ensures_run (hx c.process hc)

/-- Printing is not seen by the process. -/
theorem Console.refines_print (text : String) (q : ω) : (print text).Refines (Has R) q () q :=
  .of_yields (fun c _ => yields_update _ c) fun _ h => h

theorem Console.refines_printLine (text : String) (q : ω) :
    (printLine text).Refines (Has R) q () q :=
  refines_print _ q

theorem refines_printOptions (o : Options) (q : ω) : (printOptions o).Refines (Has R) q () q :=
  (refines_printLine _ q).bind <| (refines_printLine _ q).bind <| (refines_printLine _ q).bind <|
    (refines_printLine _ q).bind (refines_printLine _ q)

theorem refines_printStats (stats : Stats) (q : ω) : (printStats stats).Refines (Has R) q () q :=
  (refines_printLine _ q).bind <| (refines_printLine _ q).bind (refines_printLine _ q)

end Has

/-- An account of consoles whose process shows a view: it covers what is certain to happen, and what
an account of processes says. -/
structure Console.Serves (host : Host) (A : Account (Step Console) View) : Prop where
  /-- What is certain to happen does happen. -/
  of_refines : ∀ {α : Type} {x : Step Console α} {v v' : View} {a : α},
    x.Refines Console.Shows v a v' → A.Does x v a v'
  /-- Steps of the process are steps of the console. -/
  process : ∃ P, UserProcess.Serves host P ∧ ∀ {α : Type} {x : Step UserProcess α} {v v' : View}
    {a : α}, P.Does x v a v' → A.Does (Console.run x) v a v'

/-- A host that refuses nothing is followed to the end of every step. -/
theorem Console.serves_step (hh : host.Obliging) : Console.Serves host (.step Console.Shows) where
  of_refines := id
  process := ⟨_, UserProcess.serves_step hh, refines_run⟩

variable {A : Account (Step Console) View}

namespace Console.Serves

theorem print (hA : Console.Serves host A) (text : String) (v : View) :
    A.Does (Console.print text) v () v :=
  hA.of_refines (refines_print text v)

theorem pause (hA : Console.Serves host A) (v : View) :
    A.Does (Console.run (UserProcess.pause host)) v () v := by
  obtain ⟨P, hP, hrun⟩ := hA.process
  exact hrun (hP.pause v)

theorem offers_view (hA : Console.Serves host A) {a : PagedMatrix} {Q : View → Prop}
    {f : Nat → Nat → Int32}
    (hQ : ∀ v, Q v → a.Fits v.range ∧ ∀ r < a.rows, ∀ c < a.columns, a.element v r c = f r c) :
    (view host a).Offers A Q f := by
  obtain ⟨P, hP, hrun⟩ := hA.process
  exact fun v r c hv hr hc => hrun (PagedMatrix.offers_shared hP hQ v r c hv hr hc)

theorem stores_view (hA : Console.Serves host A) {a : PagedMatrix} (h : a.Fits v₀.range) :
    (view host a).Stores A (v₀.Within a.region) a.element := by
  obtain ⟨P, hP, hrun⟩ := hA.process
  intro v r c x hv hr hc
  obtain ⟨v', hset, hv', hreplaces⟩ := h.stores_shared hP v r c x hv hr hc
  exact ⟨v', hrun hset, hv', hreplaces⟩

end Console.Serves

/-! ## Twins -/

/-- Both matrices have `n` rows and columns, and the one in managed memory has room there. -/
structure Twins.Laid (t : Twins) (n : Nat) (v : View) : Prop where
  /-- The rows in managed memory. -/
  rows : t.paged.rows = n
  /-- The columns in managed memory. -/
  columns : t.paged.columns = n
  /-- The rows in ordinary memory. -/
  heapRows : t.heap.rows = n
  /-- The columns in ordinary memory. -/
  heapColumns : t.heap.columns = n
  /-- There is room in the region. -/
  fits : t.paged.Fits v.range
  /-- The region is in use. -/
  below : t.paged.region.position v.range + t.paged.region.length ≤ v.used

/-- Both matrices have the same elements. -/
structure Twins.Agree (t : Twins) (n : Nat) (v : View) : Prop extends t.Laid n v where
  /-- Each element in managed memory is the one in ordinary memory. -/
  elements : ∀ r < n, ∀ c < n, t.paged.element v r c = t.heap.get r c

/-- Where twins are laid does not depend on the bytes. -/
theorem Twins.Laid.of_within {r : Region} (h : t.Laid n v) (hw : v.Within r v') : t.Laid n v' where
  rows := h.rows
  columns := h.columns
  heapRows := h.heapRows
  heapColumns := h.heapColumns
  fits := hw.range.symm ▸ h.fits
  below := by
    rw [hw.range, hw.used]
    exact h.below

/-- Twins agree as long as other regions are written to. -/
theorem Twins.Agree.of_within (h : t.Agree n v) (ht : t'.Laid n v)
    (hapart : t.paged.region.Apart t'.paged.region) (hw : v.Within t'.paged.region v') :
    t.Agree n v' where
  toLaid := h.toLaid.of_within hw
  elements r hr c hc := by
    rw [h.fits.element_of_within ht.fits hapart hw (h.rows.symm ▸ hr) (h.columns.symm ▸ hc)]
    exact h.elements r hr c hc

/-- Twins of zeros behind the regions in use. -/
def newborn (n bytes : Nat) (v : View) : Twins := ⟨⟨n, n, v.next bytes⟩, ⟨n, n, #[]⟩⟩

/-- The view after one more region was allocated. -/
abbrev grown (v : View) (bytes : Nat) : View := { v with toFlatMemory := v.reserve bytes }

/-- Bytes of a matrix of size `n`. -/
abbrev matrixBytes (n : Nat) : Nat := n * n * Region.wordSize

/-- There is room in ordinary memory for the zeros of a matrix whose bytes fit into a vector. -/
theorem zero_of_lt (h : matrixBytes n < capacityLimit) : HeapMatrix.zero n n = .ok ⟨n, n, #[]⟩ := by
  simp only [matrixBytes, Region.wordSize, capacityLimit] at h
  unfold HeapMatrix.zero
  rw [if_neg (by simp only [wordLimit]; omega),
    if_neg (by simp only [capacityLimit, HeapMatrix.elementSize]; omega)]

theorem laid_newborn (hroom : Memory.alignUp v.used + matrixBytes n ≤ memorySize) :
    (newborn n (matrixBytes n) v).Laid n (grown v (matrixBytes n)) := by
  have hlies := FlatMemory.lies_next hroom
  refine ⟨rfl, rfl, rfl, rfl, ⟨hlies.position_eq.symm ▸ hlies, Nat.le_refl _⟩, ?_⟩
  exact Nat.le_of_eq (congrArg (· + matrixBytes n) hlies.position_eq)

/-- Twins are made where there is room for them. -/
theorem does_newTwins (hA : Console.Serves host A)
    (hroom : Memory.alignUp v.used + matrixBytes n ≤ memorySize) :
    A.Does (newTwins host n (matrixBytes n)) v (some (newborn n (matrixBytes n) v))
      (grown v (matrixBytes n)) := by
  have hzero : HeapMatrix.zero n n = .ok ⟨n, n, #[]⟩ := by
    refine zero_of_lt ?_
    simp only [memorySize, capacityLimit] at *
    omega
  have hregion : PagedMatrix.ofRegion n n (v.next (matrixBytes n)) =
      .ok ⟨n, n, v.next (matrixBytes n)⟩ := by
    unfold PagedMatrix.ofRegion
    simp only [memorySize, matrixBytes, Region.wordSize] at hroom
    rw [if_neg (by simp only [wordLimit, Region.wordSize]; omega)]
    exact if_neg (Nat.lt_irrefl _)
  refine A.does_bind (hA.of_refines (refines_ofChecked hzero v)) ?_
  refine A.does_bind (hA.pause v) ?_
  refine A.does_bind (hA.of_refines (refines_run (UserProcess.refines_allocateRegion hroom))) ?_
  exact A.does_bind (hA.of_refines (refines_ofChecked hregion _)) (A.does_pure _ _)

/-- No twins are made where there is no room for them, as long as there is room in ordinary memory. -/
theorem does_newTwins_none (hA : Console.Serves host A) (hcapacity : matrixBytes n < capacityLimit)
    (hfull : ¬ Memory.alignUp v.used + matrixBytes n ≤ memorySize) :
    A.Does (newTwins host n (matrixBytes n)) v none v := by
  refine A.does_bind (hA.of_refines (refines_ofChecked (zero_of_lt hcapacity) v)) ?_
  refine A.does_bind (hA.pause v) ?_
  refine A.does_bind (hA.of_refines (refines_run (UserProcess.refines_allocateRegion_none hfull))) ?_
  exact A.does_pure none v

/-- Twins agree again when both matrices got the same new elements. -/
theorem Twins.Laid.agree (h : t.Laid n v) {d : HeapMatrix} {f : Nat → Nat → Int32}
    (hd : d.Is n n f) (helements : ∀ r < n, ∀ c < n, t.paged.element v r c = f r c) :
    Twins.Agree { t with heap := d } n v where
  toLaid := { h with heapRows := hd.rows_eq, heapColumns := hd.columns_eq }
  elements r hr c hc := (helements r hr c hc).trans (hd.get_eq r hr c hc).symm

/-- Twins are filled with the same drawn elements. -/
theorem exists_fillTwins (hA : Console.Serves host A) (h : t.Laid n v) (s : Random.Stream) :
    ∃ d v', A.Does (fillTwins host t s) v ({ t with heap := d }, Matrix.undrawn s (n * n)) v' ∧
      v.Within t.paged.region v' ∧ Twins.Agree { t with heap := d } n v' ∧
      d.Is n n (Matrix.drawn s n) := by
  obtain ⟨d, hd, his⟩ := t.heap.generate_spec s
  rw [h.heapRows, h.heapColumns] at hd his
  have hshape : (view host t.paged).shape = (d.rows, d.columns) := by
    rw [his.rows_eq, his.columns_eq]
    exact Prod.ext h.rows h.columns
  obtain ⟨v', hcopy, hwithin, helements⟩ :=
    Matrix.exists_copy (d.offers_view (v.Within t.paged.region)) (hA.stores_view h.fits) hshape
      (.refl v _)
  refine ⟨d, v', ?_, hwithin, ?_, his⟩
  · unfold fillTwins
    rw [hd]
    exact A.does_bind (hA.of_refines (refines_ofChecked (if_pos hshape.symm) v))
      (A.does_bind hcopy (A.does_pure _ v'))
  · change ∀ r < d.rows, ∀ c < d.columns, _ at helements
    rw [his.rows_eq, his.columns_eq] at helements
    exact (h.of_within hwithin).agree ⟨his.rows_eq, his.columns_eq, fun _ _ _ _ => rfl⟩ helements

/-- Twins that agree offer their elements. -/
theorem Twins.Agree.offers_self (h : t.Agree n v) (hA : Console.Serves host A) :
    (view host t.paged).Offers A (· = v) t.heap.get := by
  refine hA.offers_view ?_
  rintro _ rfl
  exact ⟨h.fits, fun r hr c hc => h.elements r (h.rows ▸ hr) c (h.columns ▸ hc)⟩

/-- Twins that agree offer their elements while the result is written. -/
theorem Twins.Agree.offers (h : t.Agree n v) (hA : Console.Serves host A) (ht : t'.Laid n v)
    (hapart : t.paged.region.Apart t'.paged.region) :
    (view host t.paged).Offers A (v.Within t'.paged.region) t.heap.get := by
  refine hA.offers_view fun v' hv' => ?_
  have hagree := h.of_within ht hapart hv'
  exact ⟨hagree.fits, fun r hr c hc => hagree.elements r (h.rows ▸ hr) c (h.columns ▸ hc)⟩

/-- The product of twins that agree is the same in both memories. -/
theorem exists_multiplyTwins (hA : Console.Serves host A) {a b result : Twins} (ha : a.Agree n v)
    (hb : b.Agree n v) (h : result.Laid n v) (haa : a.paged.region.Apart result.paged.region)
    (hba : b.paged.region.Apart result.paged.region) :
    ∃ d v', A.Does (multiplyTwins host a b result) v { result with heap := d } v' ∧
      v.Within result.paged.region v' ∧ Twins.Agree { result with heap := d } n v' ∧
      d.Is n n (Matrix.product a.heap.get b.heap.get n) := by
  have hinner : (view host a.paged).columns = (view host b.paged).rows :=
    ha.columns.trans hb.rows.symm
  have hshape : (view host result.paged).shape =
      ((view host a.paged).rows, (view host b.paged).columns) :=
    Prod.ext (h.rows.trans ha.rows.symm) (h.columns.trans hb.columns.symm)
  obtain ⟨v', hmultiply, hwithin, helements⟩ :=
    Matrix.exists_multiply (ha.offers hA h haa) (hb.offers hA h hba) (hA.stores_view h.fits) hinner
      hshape (fun _ => print ".") (fun _ v _ => hA.print "." v) (.refl v _)
  obtain ⟨d, hd, his⟩ := HeapMatrix.multiply_spec (ha.heapColumns.trans hb.heapRows.symm)
    (Prod.ext (h.heapRows.trans ha.heapRows.symm) (h.heapColumns.trans hb.heapColumns.symm))
  rw [ha.heapRows, ha.heapColumns, hb.heapColumns] at his
  refine ⟨d, v', ?_, hwithin, ?_, his⟩
  · refine A.does_bind (hA.of_refines (refines_ofChecked (if_pos hinner) v)) ?_
    refine A.does_bind hmultiply (A.does_bind (hA.print "\n" v') ?_)
    exact A.does_bind (hA.of_refines (refines_ofChecked hd v')) (A.does_pure _ v')
  · change ∀ r < a.paged.rows, ∀ c < b.paged.columns,
      _ = Matrix.product _ _ a.paged.columns r c at helements
    rw [ha.rows, ha.columns, hb.columns] at helements
    exact (h.of_within hwithin).agree his helements

namespace Twins.Agree

/-- Twins agree when one more region was allocated. -/
theorem grown (h : t.Agree n v) (bytes : Nat) : t.Agree n (grown v bytes) where
  toLaid :=
    { h.toLaid with
      fits := h.fits
      below := Nat.le_trans h.below (Nat.le_trans (Memory.le_alignUp _) (Nat.le_add_right ..)) }
  elements := h.elements

/-- The next region lies behind the twins. -/
theorem apart_next (h : t.Agree n v) (hroom : Memory.alignUp v.used + bytes ≤ memorySize) :
    t.paged.region.Apart (v.next bytes) := by
  have hbelow := h.below
  have hle := Memory.le_alignUp v.used
  have hstart := h.fits.lies.start
  have hstart' := (FlatMemory.lies_next hroom).start
  refine Or.inl ?_
  omega

/-- Twins agree while the next ones are filled. -/
theorem carried (h : t.Agree n v) (hroom : Memory.alignUp v.used + matrixBytes n ≤ memorySize)
    (hw : (Demo.grown v (matrixBytes n)).Within (v.next (matrixBytes n)) v') : t.Agree n v' :=
  (h.grown _).of_within (laid_newborn hroom) (h.apart_next hroom) hw

end Twins.Agree

end DemandPaging.Demo
