import DemandPaging.Proofs.Demo.Verification

/-!
# Matrices that are too large

A run whose matrices do not fit into the range is meant to say so. Each matrix is made in ordinary
memory before there is a question of its region, and a vector may hold less than a machine word can
count. Matrices between these limits end the run with a panic, where smaller ones are refused by the
allocation and larger ones because their bytes cannot be counted.
-/

namespace DemandPaging.Demo

open Step Console

variable {host : Host} {o : Options} {c : Console}

/-- The sizes from the root of the capacity of a vector up to the root of the machine words. -/
theorem overlong_iff {n : Nat} : Overlong n ↔ 1518500250 ≤ n ∧ n < 2147483648 := by
  simp only [Overlong, matrixBytes, Region.wordSize, capacityLimit, wordLimit]
  constructor
  · rintro ⟨hlow, hhigh⟩
    constructor <;> by_contra! h
    · have := Nat.mul_le_mul (Nat.le_of_lt_succ h) (Nat.le_of_lt_succ h)
      omega
    · have := Nat.mul_le_mul h h
      omega
  · rintro ⟨hlow, hhigh⟩
    have hsquare := Nat.mul_le_mul hlow hlow
    have hsquare' := Nat.mul_le_mul (Nat.le_of_lt_succ hhigh) (Nat.le_of_lt_succ hhigh)
    omega

/-- A run with these settings reports that the matrices are too large exactly if three of them do
not fit into the range, and it does not panic. -/
def Reports (host : Host) (o : Options) (c : Console) : Prop :=
  ((∃ c' es, (run host o).Yields c .tooLarge c' es) ↔
    memorySize < 2 * Memory.alignUp (matrixBytes o.size) + matrixBytes o.size) ∧
  ∀ journal p t, run host o ⟨c, journal⟩ ≠ .error (.panic p) t

/-- A run that comes to a verdict does not panic, and it comes to no other verdict. -/
theorem reports_of_yields {c' : Console} {es : Array Event} {verdict : Verdict}
    (hrun : (run host o).Yields c verdict c' es)
    (hverdict : verdict = .tooLarge ↔
      memorySize < 2 * Memory.alignUp (matrixBytes o.size) + matrixBytes o.size) :
    Reports host o c := by
  refine ⟨Iff.trans ⟨?_, ?_⟩ hverdict, fun journal p t hpanic => ?_⟩
  · rintro ⟨c'', es', hrun'⟩
    exact (hrun.unique hrun').1
  · rintro rfl
    exact ⟨c', es, hrun⟩
  · rw [hrun journal] at hpanic
    cases hpanic

/-- A matrix of such a size is not made in ordinary memory. -/
theorem ensures_newTwins_of_overlong {n : Nat} (h : Overlong n) (host : Host) (bytes : Nat)
    (c : Console) : (newTwins host n bytes).Ensures c (fun _ _ => False)
      fun e _ => e = .panic .capacityOverflow := by
  obtain ⟨hlarge, hcounted⟩ := h
  have hzero : HeapMatrix.zero n n = .error .capacityOverflow := by
    simp only [matrixBytes, Region.wordSize, wordLimit] at hcounted
    unfold HeapMatrix.zero
    rw [if_neg (by simp only [wordLimit]; omega)]
    exact if_pos hlarge
  unfold newTwins
  rw [hzero]
  exact fun _ => rfl

/-- Nor does room for three of them come about. -/
theorem ensures_stock_of_overlong (h : Overlong o.size) (host : Host) (c : Console) :
    (stock host o).Ensures c (fun _ _ => False) fun e _ => e = .panic .capacityOverflow := by
  unfold stock
  rw [matrixBytes?_of_lt h.2]
  dsimp only
  refine (yields_printLine _ c).ensures_bind ?_
  exact (ensures_newTwins_of_overlong h host _ _).bind nofun

section Hospitable

variable (hh : host.Hospitable) (hlow : 1 ≤ o.budget) (hhigh : o.budget ≤ pageCount)
  (hidle : c.process.active = none) (hnone : c.process.pagers = [])

include hh hlow hhigh hidle hnone

/-- Outside the gap, matrices that do not fit are refused. -/
theorem exists_run_tooLarge
    (hfull : memorySize < 2 * Memory.alignUp (matrixBytes o.size) + matrixBytes o.size)
    (hsize : ¬ Overlong o.size) : ∃ c' es, (run host o).Yields c .tooLarge c' es := by
  obtain ⟨stocked, c₁, es₁, v, pager, hprepare, -, hstocked, -⟩ :=
    exists_prepare hh hlow hhigh hsize hidle hnone
  rw [run_eq]
  cases hstocked with
  | filled hfits h => exact absurd hfull (Nat.not_lt.mpr hfits)
  | full _ => exact ⟨c₁, _, hprepare.bind (Yields.pure Verdict.tooLarge c₁)⟩

/-- In the gap the run stops when the first matrix is made in ordinary memory. -/
theorem exists_panic_of_overlong (hsize : Overlong o.size) (journal : Array Event) :
    ∃ t, run host o ⟨c, journal⟩ = .error (.panic .capacityOverflow) t := by
  obtain ⟨c₁, es₁, v, pager, hstart, -⟩ :=
    exists_start hh (Options.validate_config hlow hhigh) hidle hnone
  have hrun : (run host o).Ensures c (fun _ _ => False) fun e _ => e = .panic .capacityOverflow := by
    rw [run_eq]
    exact (hstart.ensures_bind (ensures_stock_of_overlong hsize host c₁)).bind nofun
  obtain ⟨e, t, herror, rfl⟩ := hrun.exists_error journal
  exact ⟨t, herror⟩

theorem reports_of_not_overlong (hsize : ¬ Overlong o.size) : Reports host o c := by
  by_cases hfits : 2 * Memory.alignUp (matrixBytes o.size) + matrixBytes o.size ≤ memorySize
  · obtain ⟨c', es, hrun⟩ := exists_run hh hlow hhigh hfits hidle hnone
    exact reports_of_yields hrun (iff_of_false nofun (Nat.not_lt.mpr hfits))
  · have hfull := Nat.lt_of_not_le hfits
    obtain ⟨c', es, hrun⟩ := exists_run_tooLarge hh hlow hhigh hidle hnone hfull hsize
    exact reports_of_yields hrun (iff_of_true rfl hfull)

theorem not_reports_of_overlong (hsize : Overlong o.size) : ¬ Reports host o c := by
  intro hreports
  obtain ⟨t, hpanic⟩ := exists_panic_of_overlong hh hlow hhigh hidle hnone hsize #[]
  exact hreports.2 #[] _ t hpanic

end Hospitable

/-- On a host that refuses nothing, a run reports matrices that are too large, and never panics,
for exactly the sizes outside the gap; in the gap it panics. -/
theorem reports_iff_of_hospitable (hh : host.Hospitable) (hlow : 1 ≤ o.budget)
    (hhigh : o.budget ≤ pageCount) (hidle : c.process.active = none)
    (hnone : c.process.pagers = []) :
    (Reports host o c ↔ ¬ Overlong o.size) ∧ (Overlong o.size → ∀ journal,
      ∃ t, run host o ⟨c, journal⟩ = .error (.panic .capacityOverflow) t) := by
  refine ⟨⟨fun hreports hsize => ?_, ?_⟩, ?_⟩
  · exact not_reports_of_overlong hh hlow hhigh hidle hnone hsize hreports
  · exact reports_of_not_overlong hh hlow hhigh hidle hnone
  · exact exists_panic_of_overlong hh hlow hhigh hidle hnone

/-- The first size that does not fit is reported, and the first one in the gap ends with a panic. -/
theorem reports_iff_of_hospitable_borders : Host.willing.Hospitable ∧
    Reports .willing ⟨5, 64, .fifo, 1183⟩ {} ∧
    ∃ t, run .willing ⟨5, 64, .fifo, 1518500250⟩ ⟨{}, #[]⟩ = .error (.panic .capacityOverflow) t := by
  refine ⟨Host.hospitable_willing, ?_, ?_⟩
  · have hborder : ¬ Overlong 1183 := by
      rw [overlong_iff]
      decide
    exact (reports_iff_of_hospitable (o := ⟨5, 64, .fifo, 1183⟩) (c := {}) Host.hospitable_willing
      (by decide) (by decide) rfl rfl).1.mpr hborder
  · exact (reports_iff_of_hospitable (o := ⟨5, 64, .fifo, 1518500250⟩) (c := {})
      Host.hospitable_willing (by decide) (by decide) rfl rfl).2 (overlong_iff.mpr (by decide)) #[]

/-- Two matrices of the first size in the gap are too large for the range, and the run panics. -/
theorem not_reports_first_overlong : Host.willing.Hospitable ∧ 1 ≤ 64 ∧ 64 ≤ pageCount ∧
    ¬ Reports .willing ⟨5, 64, .fifo, 1518500250⟩ {} :=
  ⟨Host.hospitable_willing, by decide, by decide,
    not_reports_of_overlong Host.hospitable_willing (by decide) (by decide) rfl rfl
      (overlong_iff.mpr (by decide))⟩

end DemandPaging.Demo
