import DemandPaging.Proofs.Ensures

/-!
# Steps on abstract states

`x.Refines R v a v'` says what the step `x` does in terms of abstract states:
from every state that `R` relates to `v` it runs to its end, hands out `a` and
leaves a state that `R` relates to `v'`. What was reported on the way is left
out. The rules follow the ways of building a step, like those for `Yields`.

`x.Admits R v a v'` says the same of the steps that run to their end, and leaves
open whether `x` does. It is all that can be said on a host that may refuse.
-/

namespace DemandPaging.Step

variable {σ ω α β : Type} {R : σ → ω → Prop} {v v₁ v' : ω} {a : α} {b : β}

/-- From `v` the step runs to its end in `v'` and hands out `a`. -/
def Refines (R : σ → ω → Prop) (x : Step σ α) (v : ω) (a : α) (v' : ω) : Prop :=
  ∀ s, R s v → ∃ s' es, x.Yields s a s' es ∧ R s' v'

theorem Refines.pure (a : α) (v : ω) : Refines R (Pure.pure a : Step σ α) v a v := fun s h =>
  ⟨s, #[], Yields.pure a s, h⟩

theorem Refines.bind {x : Step σ α} {f : α → Step σ β} (hx : x.Refines R v a v₁)
    (hf : (f a).Refines R v₁ b v') : (x >>= f).Refines R v b v' := by
  intro s h
  obtain ⟨s₁, es₁, hhead, h₁⟩ := hx s h
  obtain ⟨s', es₂, hrest, h'⟩ := hf s₁ h₁
  exact ⟨s', es₁ ++ es₂, hhead.bind hrest, h'⟩

/-- From `v` the step runs to its end and hands out `a`; the state that it leaves is left open. -/
def Ends (R : σ → ω → Prop) (x : Step σ α) (v : ω) (a : α) : Prop :=
  ∀ s, R s v → ∃ s' es, x.Yields s a s' es

/-- A first step in front of others that run to their end. -/
theorem Refines.ends_bind {x : Step σ α} {f : α → Step σ β} (hx : x.Refines R v a v₁)
    (hf : (f a).Ends R v₁ b) : (x >>= f).Ends R v b := by
  intro s h
  obtain ⟨s₁, es₁, hhead, h₁⟩ := hx s h
  obtain ⟨s', es₂, hrest⟩ := hf s₁ h₁
  exact ⟨s', es₁ ++ es₂, hhead.bind hrest⟩

/-- A step that is known to do the same from every related state. -/
theorem Refines.of_yields {x : Step σ α} {f : σ → σ} {es : Array Event}
    (hx : ∀ s, R s v → x.Yields s a (f s) es) (hR : ∀ s, R s v → R (f s) v') :
    x.Refines R v a v' := fun s h =>
  ⟨f s, es, hx s h, hR s h⟩

theorem refines_ofChecked {r : Except Panic α} (h : r = .ok a) (v : ω) :
    (ofChecked r : Step σ α).Refines R v a v :=
  .of_yields (f := id) (fun s _ => yields_ofChecked h s) fun _ => id

/-! ## Steps that may stop -/

/-- If the step runs to its end from `v`, it hands out `a` and leads to `v'`. -/
def Admits (R : σ → ω → Prop) (x : Step σ α) (v : ω) (a : α) (v' : ω) : Prop :=
  ∀ s, R s v → x.Ensures s (fun b t => b = a ∧ R t v') fun _ _ => True

theorem Refines.admits {x : Step σ α} (hx : x.Refines R v a v') : x.Admits R v a v' := by
  intro s h
  obtain ⟨s', es, hyields, h'⟩ := hx s h
  exact hyields.ensures ⟨rfl, h'⟩

theorem Admits.pure (a : α) (v : ω) : Admits R (Pure.pure a : Step σ α) v a v :=
  (Refines.pure a v).admits

theorem Admits.bind {x : Step σ α} {f : α → Step σ β} (hx : x.Admits R v a v₁)
    (hf : (f a).Admits R v₁ b v') : (x >>= f).Admits R v b v' := by
  intro s h
  refine (hx s h).bind ?_
  rintro _ t ⟨rfl, ht⟩
  exact hf t ht

end DemandPaging.Step
