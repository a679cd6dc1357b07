import DemandPaging.Proofs.Demo.Twins

/-!
# The stages of a run

Once its pager is started, a run makes room for its matrices and fills two of them, multiplies these
into the third, and compares. Whether there is room is known beforehand: the three matrices lie
behind each other from the start of the range, each at the next aligned place.
-/

namespace DemandPaging.Demo

open Step Console

variable {host : Host} {o : Options} {c : Console} {v v' : View} {n bytes : Nat}

/-! ## Stages -/

/-- Print the settings and start the pager. -/
def start (host : Host) (o : Options) : Step Console Unit := do
  printOptions o
  Console.run (UserProcess.init host o.config)

/-- Make room for three matrices and fill the first two; nothing, if they do not fit. -/
def stock (host : Host) (o : Options) : Step Console (Option (Twins × Twins × Twins)) := do
  let some bytes := matrixBytes? o.size | return none
  printLine "Generating two matrices\n"
  let some a ← newTwins host o.size bytes | return none
  let (a, s) ← fillTwins host a (.ofSeed (UInt64.ofNat o.seed))
  let some b ← newTwins host o.size bytes | return none
  let (b, _) ← fillTwins host b s
  let some result ← newTwins host o.size bytes | return none
  return some (a, b, result)

/-- Multiply two matrices into the third. -/
def compute (host : Host) (a b result : Twins) : Step Console Twins := do
  printLine "Multiplying the matrices together"
  printLine " * Printing one dot per row in result matrix.\n"
  multiplyTwins host a b result

/-- Compare the matrices and shut the pager down. -/
def conclude (host : Host) (a b result : Twins) : Step Console Verdict := do
  printLine "Verifying source and result matrix contents"
  let first ← checkTwins host "Matrix m1" a
  let second ← checkTwins host "Matrix m2" b
  let third ← checkTwins host "Result matrix" result
  Console.run (UserProcess.pause host)
  printStats (← Console.run (UserProcess.shutdown host))
  return .compared (first && second && third)

/-- What a run does with its matrices, if there is room for them. -/
def proceed (host : Host) : Option (Twins × Twins × Twins) → Step Console Verdict
  | none => return .tooLarge
  | some (a, b, result) => do conclude host a b (← compute host a b result)

/-- Start the pager and make room for the matrices. -/
def prepare (host : Host) (o : Options) : Step Console (Option (Twins × Twins × Twins)) := do
  start host o
  stock host o

/-- A run is its stages in a row. -/
theorem run_eq (host : Host) (o : Options) : run host o = prepare host o >>= proceed host := by
  unfold run prepare start stock
  simp only [bind_assoc]
  congr; funext _
  congr; funext _
  cases matrixBytes? o.size with
  | none => rfl
  | some bytes =>
    simp only [bind_assoc]
    congr; funext _
    congr; funext a?
    cases a? with
    | none => rfl
    | some a =>
      simp only [bind_assoc]
      congr; funext filled
      congr; funext b?
      cases b? with
      | none => rfl
      | some b =>
        simp only [bind_assoc]
        congr; funext filled'
        congr; funext result?
        cases result? with
        | none => rfl
        | some result =>
          simp only [proceed, compute, conclude, bind_assoc, pure_bind]

/-! ## The start -/

/-- Settings with a budget of some pages are valid. -/
theorem Options.validate_config (hlow : 1 ≤ o.budget) (hhigh : o.budget ≤ pageCount) :
    o.config.validate = .ok () := by
  have hbudget : ¬ (o.budget = 0 ∨ pageCount < o.budget) := by omega
  exact if_neg hbudget

/-- On a host that refuses nothing the pager is started, with all of its memory unused. -/
theorem exists_start (hh : host.Hospitable) (hc : o.config.validate = .ok ())
    (hidle : c.process.active = none) (hnone : c.process.pagers = []) :
    ∃ c' es v pager, (start host o).Yields c () c' es ∧ Console.Shows c' v ∧ v.used = 0 ∧
      v.pagers = [pager] := by
  obtain ⟨c₁, es₁, hprint, hsame⟩ :=
    refines_printOptions (R := fun u u' => u = u') o c.process c rfl
  rw [← hsame] at hidle hnone
  obtain ⟨memory, pager, es₂, hinit, hfresh⟩ := UserProcess.exists_begun hh.toWelcoming hc hidle
  have hshows := UserProcess.shows_begun hfresh hc c₁.process pager
  rw [hnone] at hshows
  exact ⟨{ c₁ with process := c₁.process.begun memory pager }, _, _, pager,
    hprint.bind (yields_run hinit), hshows, rfl, rfl⟩

/-- A pager that was started has all of its memory unused, on every host. -/
theorem ensures_start (host : Host) (o : Options) (c : Console) :
    (start host o).Ensures c (fun _ c' => ∃ v, Console.Shows c' v ∧ v.used = 0) fun _ _ => True := by
  obtain ⟨c₁, es₁, hprint, -⟩ :=
    refines_printOptions (R := fun u u' => u = u') o c.process c rfl
  refine hprint.ensures_bind ((ensures_run (UserProcess.ensures_init host o.config _)).mono ?_
    fun _ _ _ => trivial)
  rintro _ c' ⟨-, memory, pager, hfresh, hc, hprocess⟩
  have hshows := UserProcess.shows_begun hfresh hc c₁.process pager
  rw [← hprocess] at hshows
  exact ⟨_, hshows, rfl⟩

/-! ## Room for three matrices -/

/-- Matrices of this size have too many bytes for a vector, but not too many to be counted. -/
def Overlong (n : Nat) : Prop := capacityLimit ≤ matrixBytes n ∧ matrixBytes n < wordLimit

/-- Three matrices of such a size do not fit. -/
theorem not_overlong_of_fits
    (hfits : 2 * Memory.alignUp (matrixBytes n) + matrixBytes n ≤ memorySize) : ¬ Overlong n := by
  rintro ⟨hlarge, -⟩
  simp only [memorySize, capacityLimit] at *
  omega

/-- The bytes of a matrix are counted while their number is a machine word. -/
theorem matrixBytes?_of_lt (h : matrixBytes n < wordLimit) : matrixBytes? n = some (matrixBytes n) := by
  refine if_neg ?_
  simp only [matrixBytes, Region.wordSize] at *
  omega

theorem matrixBytes?_of_le (h : wordLimit ≤ matrixBytes n) : matrixBytes? n = none :=
  if_pos (Or.inr h)

/-- The place of the third matrix. -/
theorem alignUp_alignUp_add (bytes : Nat) :
    Memory.alignUp (Memory.alignUp bytes + bytes) = 2 * Memory.alignUp bytes := by
  simp only [Memory.alignUp, allocationAlignment]
  omega

/-- Two matrices are filled, and the third lies behind them. -/
structure Stocked (n : Nat) (a b result : Twins) (v : View) : Prop where
  /-- The first one is the same in both memories. -/
  left : a.Agree n v
  /-- The second one is the same in both memories. -/
  right : b.Agree n v
  /-- The third one has room. -/
  out : result.Laid n v
  /-- The third one is not kept in the place of the first. -/
  leftApart : a.paged.region.Apart result.paged.region
  /-- The third one is not kept in the place of the second. -/
  rightApart : b.paged.region.Apart result.paged.region
  /-- The elements of the first one were drawn. -/
  leftDrawn : ∃ s, a.heap.Is n n (Matrix.drawn s n)
  /-- The elements of the second one were drawn. -/
  rightDrawn : ∃ s, b.heap.Is n n (Matrix.drawn s n)

/-- What comes of making room for three matrices: there is none for one of them, or all are there. -/
inductive Stock (n : Nat) (v : View) : Option (Twins × Twins × Twins) → Prop where
  | full (hfull : memorySize < 2 * Memory.alignUp (matrixBytes n) + matrixBytes n) : Stock n v none
  | filled {a b result : Twins}
      (hfits : 2 * Memory.alignUp (matrixBytes n) + matrixBytes n ≤ memorySize)
      (h : Stocked n a b result v) : Stock n v (some (a, b, result))

variable {A : Account (Step Console) View}

/-- Room is made for three matrices exactly where they fit, unless one of them is too large for
ordinary memory and yet has a number of bytes. -/
theorem exists_stock (hA : Console.Serves host A) (hused : v.used = 0) (hsize : ¬ Overlong o.size) :
    ∃ stocked v', A.Does (stock host o) v stocked v' ∧ Stock o.size v' stocked ∧
      v'.pagers = v.pagers := by
  have hcapacity : matrixBytes o.size < capacityLimit ∨ wordLimit ≤ matrixBytes o.size := by
    unfold Overlong at hsize
    omega
  unfold stock
  rcases hcapacity with hcapacity | hword
  swap
  · rw [matrixBytes?_of_le hword]
    refine ⟨none, v, A.does_pure none v, .full ?_, rfl⟩
    simp only [wordLimit, memorySize] at *
    omega
  rw [matrixBytes?_of_lt (Nat.lt_trans hcapacity (by decide))]
  -- `v₁` and `v₂` are the views after a matrix was filled; each time a region is added behind the
  -- ones before, so the twins that agreed before still do
  have hplace₁ : Memory.alignUp v.used = 0 := by
    rw [hused]
    rfl
  by_cases hroom₁ : Memory.alignUp v.used + matrixBytes o.size ≤ memorySize
  swap
  · refine ⟨none, v, ?_, .full (by omega), rfl⟩
    exact A.does_bind (hA.print _ v) (A.does_bind (does_newTwins_none hA hcapacity hroom₁)
      (A.does_pure none v))
  obtain ⟨d₁, v₁, hfill₁, hwithin₁, ha, hdrawn₁⟩ :=
    exists_fillTwins hA (laid_newborn hroom₁) (.ofSeed (UInt64.ofNat o.seed))
  have hplace₂ : Memory.alignUp v₁.used = Memory.alignUp (matrixBytes o.size) := by
    rw [hwithin₁.used]
    change Memory.alignUp (Memory.alignUp v.used + _) = _
    rw [hplace₁, Nat.zero_add]
  by_cases hroom₂ : Memory.alignUp v₁.used + matrixBytes o.size ≤ memorySize
  swap
  · refine ⟨none, v₁, ?_, .full (by omega), hwithin₁.pagers⟩
    refine A.does_bind (hA.print _ v) (A.does_bind (does_newTwins hA hroom₁) ?_)
    exact A.does_bind hfill₁ (A.does_bind (does_newTwins_none hA hcapacity hroom₂)
      (A.does_pure none v₁))
  obtain ⟨d₂, v₂, hfill₂, hwithin₂, hb, hdrawn₂⟩ :=
    exists_fillTwins hA (laid_newborn hroom₂)
      (Matrix.undrawn (.ofSeed (UInt64.ofNat o.seed)) (o.size * o.size))
  have hplace₃ : Memory.alignUp v₂.used = 2 * Memory.alignUp (matrixBytes o.size) := by
    rw [hwithin₂.used]
    change Memory.alignUp (Memory.alignUp v₁.used + _) = _
    rw [hplace₂, alignUp_alignUp_add]
  have hpagers := hwithin₂.pagers.trans hwithin₁.pagers
  by_cases hroom₃ : Memory.alignUp v₂.used + matrixBytes o.size ≤ memorySize
  swap
  · refine ⟨none, v₂, ?_, .full (by omega), hpagers⟩
    refine A.does_bind (hA.print _ v) (A.does_bind (does_newTwins hA hroom₁) ?_)
    refine A.does_bind hfill₁ (A.does_bind (does_newTwins hA hroom₂) ?_)
    exact A.does_bind hfill₂ (A.does_bind (does_newTwins_none hA hcapacity hroom₃)
      (A.does_pure none v₂))
  have ha := ha.carried hroom₂ hwithin₂
  refine ⟨some (_, _, _), grown v₂ (matrixBytes o.size), ?_, .filled (by omega)
    ⟨ha.grown _, hb.grown _, laid_newborn hroom₃, ha.apart_next hroom₃, hb.apart_next hroom₃,
      ⟨_, hdrawn₁⟩, ⟨_, hdrawn₂⟩⟩, hpagers⟩
  refine A.does_bind (hA.print _ v) (A.does_bind (does_newTwins hA hroom₁) ?_)
  refine A.does_bind hfill₁ (A.does_bind (does_newTwins hA hroom₂) ?_)
  refine A.does_bind hfill₂ (A.does_bind (does_newTwins hA hroom₃) ?_)
  exact A.does_pure _ _

/-- On a host that refuses nothing, a run comes to the point where it has its matrices or knows that
there is no room for them. -/
theorem exists_prepare (hh : host.Hospitable) (hlow : 1 ≤ o.budget) (hhigh : o.budget ≤ pageCount)
    (hsize : ¬ Overlong o.size) (hidle : c.process.active = none) (hnone : c.process.pagers = []) :
    ∃ stocked c' es v pager, (prepare host o).Yields c stocked c' es ∧ Console.Shows c' v ∧
      Stock o.size v stocked ∧ v.pagers = [pager] := by
  obtain ⟨c₁, es₁, v, pager, hstart, hshows, hused, hpagers⟩ :=
    exists_start hh (Options.validate_config hlow hhigh) hidle hnone
  obtain ⟨stocked, v', hstock, hstocked, hpagers'⟩ :=
    exists_stock (Console.serves_step hh.toObliging) hused hsize
  obtain ⟨c₂, es₂, hstock, hshows'⟩ := hstock c₁ hshows
  exact ⟨stocked, c₂, _, v', pager, hstart.bind hstock, hshows', hstocked, hpagers'.trans hpagers⟩

/-! ## The product -/

/-- The third matrix becomes the product of the first two, which stay as they are. -/
theorem exists_compute (hA : Console.Serves host A) {a b result : Twins} (h : Stocked n a b result v) :
    ∃ d v', A.Does (compute host a b result) v { result with heap := d } v' ∧
      a.Agree n v' ∧ b.Agree n v' ∧ Twins.Agree { result with heap := d } n v' ∧
      d.Is n n (Matrix.product a.heap.get b.heap.get n) ∧ v'.pagers = v.pagers := by
  obtain ⟨d, v', hmultiply, hwithin, hagree, his⟩ :=
    exists_multiplyTwins hA h.left h.right h.out h.leftApart h.rightApart
  refine ⟨d, v', ?_, h.left.of_within h.out h.leftApart hwithin,
    h.right.of_within h.out h.rightApart hwithin, hagree, his, hwithin.pagers⟩
  exact A.does_bind (hA.print _ v) (A.does_bind (hA.print _ v) hmultiply)

end DemandPaging.Demo
