import DemandPaging.Proofs.Demo.Stages
import DemandPaging.Proofs.Matrix.Storage

/-!
# The demo finds its matrices correct

A run is followed on the view of its process, stage by stage. The matrices that it
compares agree in both memories: two of them since they were filled with the same
elements, and the third since it is the product of these.
-/

namespace DemandPaging.Demo

open Step Console

variable {host : Host} {α : Type} {a : α} {c : Console} {v : View} {n : Nat} {t : Twins}

/-- Twins that agree are found correct. -/
theorem refines_checkTwins (hh : host.Obliging) (name : String) (h : t.Agree n v) :
    (checkTwins host name t).Refines Console.Shows v true v := by
  obtain ⟨same, hequal, hiff⟩ :=
    Matrix.exists_equal (h.offers_self (Console.serves_step hh)) (t.heap.offers_view (· = v)) rfl
  have hshape : (view host t.paged).shape = (t.heap.view : Matrix (Step Console)).shape :=
    Prod.ext (h.rows.trans h.heapRows.symm) (h.columns.trans h.heapColumns.symm)
  obtain rfl : same = true := hiff.mpr ⟨hshape, fun _ _ _ _ => rfl⟩
  exact Refines.bind hequal ((refines_printLine _ v).bind (Refines.pure _ v))

/-- The end of a run. -/
theorem ends_shutdown (hh : host.Hospitable) {pager : Pager} (hv : v.pagers = [pager]) (a : α) :
    Ends Console.Shows (do
      printStats (← Console.run (UserProcess.shutdown host))
      return a) v a := by
  intro c hc
  obtain ⟨stats, u, es, hshutdown⟩ := UserProcess.exists_shutdown hh hc hv
  obtain ⟨c', es', hprint, -⟩ :=
    refines_printStats (R := fun u u' => u = u') stats u { c with process := u } rfl
  exact ⟨c', _, (yields_run hshutdown).bind (hprint.bind (Yields.pure a c'))⟩

/-- The demo finds all of its matrices correct, whenever the timer signal is raised. -/
theorem exists_run (hh : host.Hospitable) {o : Options} (hlow : 1 ≤ o.budget)
    (hhigh : o.budget ≤ pageCount)
    (hfits : 2 * Memory.alignUp (matrixBytes o.size) + matrixBytes o.size ≤ memorySize)
    (hidle : c.process.active = none) (hnone : c.process.pagers = []) :
    ∃ c' es, (run host o).Yields c (.compared true) c' es := by
  have hA := Console.serves_step hh.toObliging
  obtain ⟨stocked, c₁, es₁, v, pager, hprepare, hshows, hstocked, hpagers⟩ :=
    exists_prepare hh hlow hhigh (not_overlong_of_fits hfits) hidle hnone
  cases hstocked with
  | full hfull => exact absurd hfits (Nat.not_le.mpr hfull)
  | @filled a b result _ h =>
    obtain ⟨d, v', hcompute, ha, hb, hresult, -, hpagers'⟩ := exists_compute hA h
    have hconclude : Ends Console.Shows (conclude host a b { result with heap := d }) v'
        (.compared true) := by
      refine (refines_printLine _ v').ends_bind ?_
      refine (refines_checkTwins hh.toObliging _ ha).ends_bind ?_
      refine (refines_checkTwins hh.toObliging _ hb).ends_bind ?_
      refine (refines_checkTwins hh.toObliging _ hresult).ends_bind ?_
      refine (refines_run (UserProcess.refines_pause hh.toObliging v')).ends_bind ?_
      exact ends_shutdown hh (hpagers'.trans hpagers) _
    obtain ⟨c', es₂, hproceed⟩ := Refines.ends_bind hcompute hconclude c₁ hshows
    rw [run_eq]
    exact ⟨c', _, hprepare.bind hproceed⟩

/-- On a host that refuses nothing, the demo finds all of its matrices correct, for every size of
which three matrices fit into the range, and wherever the timer signal falls. The reason is the same
for all programs with a pager: matrices in regions hold what matrices in ordinary memory hold after
the same generations, copies and products. -/
theorem verification_succeeds (hh : host.Hospitable) :
    (∀ (o : Options) (c : Console), 1 ≤ o.budget → o.budget ≤ pageCount →
      2 * Memory.alignUp (matrixBytes o.size) + matrixBytes o.size ≤ memorySize →
      c.process.active = none → c.process.pagers = [] →
      ∃ c' es, (run host o).Yields c (.compared true) c' es) ∧
    ∀ (config : Config) (u : UserProcess), config.validate = .ok () → u.active = none →
      ∃ t es, (UserProcess.init host config).Yields u () t es ∧
        ∀ uses state, Storage.Faithful host (t.useAll host uses) state := by
  refine ⟨fun o c hlow hhigh hfits hidle hnone => exists_run hh hlow hhigh hfits hidle hnone,
    fun config u hc hidle => ?_⟩
  obtain ⟨memory, pager, es, hinit, hfresh⟩ := UserProcess.exists_begun hh.toWelcoming hc hidle
  refine ⟨u.begun memory pager, es, hinit, fun uses state => ?_⟩
  have hseen := (UserProcess.seen_begun hfresh hc u pager).useAll hh.toObliging uses
  exact Storage.faithful_of_seen hh.toObliging hseen state

/-- The largest matrices that fit, with a budget of one page; and a product of a row and a column in
ordinary memory, written to a region of six bytes. -/
theorem verification_succeeds_largest : Host.willing.Hospitable ∧
    (∃ c' es, (run .willing ⟨7, 1, .random, 1182⟩).Yields { process := { timing := [0, 2, 1] } }
      (.compared true) c' es) ∧
    ∃ t es r, (UserProcess.init .willing {}).Yields {} () t es ∧
      let u := t.useAll .willing [.allocate 6]
      UserProcess.region? 0 u = some r ∧
      ∃ u' state es, ((Matrix.multiply ((Storage.fixed ⟨1, 2, #[3, -4]⟩).matrix .willing)
          ((Storage.fixed ⟨2, 1, #[5, 7]⟩).matrix .willing)
          ((Storage.paged 0 ⟨1, 1, r⟩).matrix .willing) fun _ => pure ()).run ⟨0, 0, #[]⟩).Yields
            u ((), state) u' es ∧
        Storage.Twin .willing u' state (.paged 0 ⟨1, 1, r⟩) ⟨1, 1, #[-13]⟩ := by
  obtain ⟨hruns, hsessions⟩ := verification_succeeds Host.hospitable_willing
  obtain ⟨t, es, hinit, hfaithful⟩ := hsessions {} {} rfl rfl
  obtain ⟨memory, pager, es', hbegun, hfresh⟩ :=
    UserProcess.exists_begun (u := {}) Host.welcoming_willing
      (show ({} : Config).validate = .ok () from rfl) rfl
  obtain ⟨-, rfl⟩ := hinit.unique hbegun
  have hobliging := Host.welcoming_willing.toObliging
  have hkept := ((UserProcess.seen_begun hfresh rfl {} pager).useAll hobliging
    [.allocate 6]).keepsApart hobliging
  obtain ⟨r, hr, hlength⟩ := Option.map_eq_some_iff.mp ((hkept.regions 0).trans rfl)
  have hmade : PagedMatrix.ofRegion 1 1 r = .ok ⟨1, 1, r⟩ := by
    unfold PagedMatrix.ofRegion
    rw [hlength]
    rfl
  obtain ⟨d, hd, hproduct, -⟩ := (hfaithful [.allocate 6] ⟨0, 0, #[]⟩).multiply
    (.fixed ⟨1, 2, #[3, -4]⟩) (.fixed ⟨2, 1, #[5, 7]⟩) (.paged 0 ⟨1, 1, r⟩) _ _ ⟨1, 1, #[]⟩
    (fun _ => pure ()) trivial trivial ⟨hr, hmade⟩ trivial trivial trivial
    (Storage.twin_fixed ..) (Storage.twin_fixed ..) rfl rfl rfl
    fun _ u state => ⟨#[], Step.Yields.pure _ u⟩
  cases hd
  refine ⟨Host.hospitable_willing, ?_, _, es, r, hinit, hr, hproduct⟩
  exact hruns ⟨7, 1, .random, 1182⟩ _ (by decide) (by decide) (by decide) rfl rfl

end DemandPaging.Demo
