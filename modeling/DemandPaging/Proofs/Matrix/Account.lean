import DemandPaging.Matrix
import DemandPaging.Proofs.Refines

/-!
# Computations in any monad

The definitions on matrices work in any monad, and so does what is proved of
them. An `Account` tells what a computation does to abstract states, by any
relation that follows the two ways of building computations; the accounts of
steps are `Step.Refines` and, where a step may stop, `Step.Admits`. A
`Comparison` tells the same of two computations at once, which may belong to
different monads. Loops over the first naturals are followed by an invariant
that depends on the number of rounds.
-/

namespace DemandPaging

/-- How computations of two monads act on the same states. -/
structure Comparison (m m' : Type → Type) [Monad m] [Monad m'] (ω : Type) where
  /-- From the state `v` both computations hand out `a` and lead to the state `v'`. -/
  Match : {α : Type} → m α → m' α → ω → α → ω → Prop
  /-- Computations without effect. -/
  match_pure : ∀ {α : Type} (a : α) (v : ω), Match (pure a) (pure a) v a v
  /-- Two computations in a row, on both sides. -/
  match_bind : ∀ {α β : Type} {x : m α} {y : m' α} {f : α → m β} {g : α → m' β} {v v₁ v' : ω} {a : α}
    {b : β}, Match x y v a v₁ → Match (f a) (g a) v₁ b v' → Match (x >>= f) (y >>= g) v b v'

namespace Comparison

variable {m m' : Type → Type} [Monad m] [Monad m'] {ω : Type} {B : Comparison m m' ω} {β : Type} {v : ω}

/-- Two steps that do the same; if they run to their end, what they do refines the abstract states. -/
def agreeing {σ : Type} (R : σ → ω → Prop) : Comparison (Step σ) (Step σ) ω where
  Match x y v a v' := y.Admits R v a v' ∧ ∀ s, R s v → Step.Agree x y s
  match_pure a v := ⟨Step.Admits.pure a v, fun s _ => .refl _ s⟩
  match_bind := by
    rintro α β x y f g v v₁ v' a b ⟨hy, hxy⟩ ⟨hg, hfg⟩
    refine ⟨hy.bind hg, fun s hs => ((hxy s hs).bind f).trans ((hy s hs).agree_bind ?_)⟩
    rintro _ t ⟨rfl, ht⟩
    exact hfg t ht

/-- A computation on states that could be refused, and one that could not. -/
def passing (ε S : Type) : Comparison (StateT S (Except ε)) (StateM S) S where
  Match x y s a s' := x.run s = .ok (a, s') ∧ y.run s = (a, s')
  match_pure _ _ := ⟨rfl, rfl⟩
  match_bind := by
    rintro α β x y f g s s₁ s' a b ⟨hx, hy⟩ ⟨hf, hg⟩
    refine ⟨?_, ?_⟩
    · rw [StateT.run_bind, hx]
      exact hf
    · rw [StateT.run_bind, hy]
      exact hg

/-- A loop with a result that goes along. The list is taken from its front, since splitting it at its
end would need the laws of the monads. -/
private theorem exists_foldlM_range' {P : Nat → β → ω → Prop} {f : β → Nat → m β} {g : β → Nat → m' β}
    {n : Nat}
    (hf : ∀ i b v, i < n → P i b v → ∃ b' v', B.Match (f b i) (g b i) v b' v' ∧ P (i + 1) b' v')
    (length k : Nat) (hn : k + length = n) {b : β} {v : ω} (h : P k b v) :
    ∃ b' v', B.Match ((List.range' k length).foldlM f b) ((List.range' k length).foldlM g b) v b' v' ∧
      P n b' v' := by
  induction length generalizing k b v with
  | zero =>
    subst hn
    exact ⟨b, v, B.match_pure b v, h⟩
  | succ length ih =>
    obtain ⟨b₁, v₁, hx, h₁⟩ := hf k b v (by omega) h
    obtain ⟨b', v', hrest, h'⟩ := ih (k + 1) (by omega) h₁
    exact ⟨b', v', B.match_bind hx hrest, h'⟩

/-- Loops over the first naturals: what holds after `i` rounds holds of the result after all of
them. -/
theorem exists_foldlM {P : Nat → β → ω → Prop} {f : β → Nat → m β} {g : β → Nat → m' β} {n : Nat}
    (hf : ∀ i b v, i < n → P i b v → ∃ b' v', B.Match (f b i) (g b i) v b' v' ∧ P (i + 1) b' v')
    {b : β} (h : P 0 b v) :
    ∃ b' v', B.Match ((List.range n).foldlM f b) ((List.range n).foldlM g b) v b' v' ∧ P n b' v' := by
  rw [List.range_eq_range']
  exact exists_foldlM_range' hf n 0 (Nat.zero_add n) h

private theorem exists_forM_range' {P : Nat → ω → Prop} {f : Nat → m Unit} {g : Nat → m' Unit}
    {n : Nat} (hf : ∀ i v, i < n → P i v → ∃ v', B.Match (f i) (g i) v () v' ∧ P (i + 1) v')
    (length k : Nat) (hn : k + length = n) {v : ω} (h : P k v) :
    ∃ v', B.Match ((List.range' k length).forM f) ((List.range' k length).forM g) v () v' ∧
      P n v' := by
  induction length generalizing k v with
  | zero =>
    subst hn
    exact ⟨v, B.match_pure () v, h⟩
  | succ length ih =>
    obtain ⟨v₁, hx, h₁⟩ := hf k v (by omega) h
    obtain ⟨v', hrest, h'⟩ := ih (k + 1) (by omega) h₁
    exact ⟨v', B.match_bind hx hrest, h'⟩

/-- Loops over the first naturals without a result. -/
theorem exists_forM {P : Nat → ω → Prop} {f : Nat → m Unit} {g : Nat → m' Unit} {n : Nat}
    (hf : ∀ i v, i < n → P i v → ∃ v', B.Match (f i) (g i) v () v' ∧ P (i + 1) v') (h : P 0 v) :
    ∃ v', B.Match ((List.range n).forM f) ((List.range n).forM g) v () v' ∧ P n v' := by
  rw [List.range_eq_range']
  exact exists_forM_range' hf n 0 (Nat.zero_add n) h

end Comparison

/-- How the computations of a monad act on states. -/
structure Account (m : Type → Type) [Monad m] (ω : Type) where
  /-- From the state `v` the computation hands out `a` and leads to the state `v'`. -/
  Does : {α : Type} → m α → ω → α → ω → Prop
  /-- A computation without effect. -/
  does_pure : ∀ {α : Type} (a : α) (v : ω), Does (pure a) v a v
  /-- Two computations in a row. -/
  does_bind : ∀ {α β : Type} {x : m α} {f : α → m β} {v v₁ v' : ω} {a : α} {b : β},
    Does x v a v₁ → Does (f a) v₁ b v' → Does (x >>= f) v b v'

namespace Account

variable {m : Type → Type} [Monad m] {ω : Type} {A : Account m ω} {α β : Type} {v v' : ω} {a : α}

/-- Steps do what refines the abstract states. -/
def step {σ : Type} (R : σ → ω → Prop) : Account (Step σ) ω where
  Does x v a v' := x.Refines R v a v'
  does_pure := Step.Refines.pure
  does_bind := Step.Refines.bind

/-- Steps that run to their end do what refines the abstract states. -/
def partly {σ : Type} (R : σ → ω → Prop) : Account (Step σ) ω where
  Does x v a v' := x.Admits R v a v'
  does_pure := Step.Admits.pure
  does_bind := Step.Admits.bind

/-- Plain values, without any state. -/
def value : Account Id Unit where
  Does x _ a _ := x.run = a
  does_pure _ _ := rfl
  does_bind := by
    rintro α β x f _ _ _ _ _ rfl h
    exact h

/-- One more state above those of `A`. -/
def withState (A : Account m ω) (S : Type) : Account (StateT S m) (S × ω) where
  Does x v a v' := A.Does (x.run v.1) v.2 (a, v'.1) v'.2
  does_pure a v := A.does_pure (a, v.1) v.2
  does_bind hx hf := A.does_bind hx hf

section State

variable {S : Type}

/-- A computation below the additional state does not change that state. -/
theorem does_lift {x : m α} (h : A.Does x v a v') (s : S) :
    (A.withState S).Does (StateT.lift x) (s, v) a (s, v') :=
  A.does_bind h (A.does_pure (a, s) v')

theorem does_get (w : S × ω) : (A.withState S).Does get w w.1 w :=
  A.does_pure (w.1, w.1) w.2

theorem does_modify (f : S → S) (w : S × ω) : (A.withState S).Does (modify f) w () (f w.1, w.2) :=
  A.does_pure ((), f w.1) w.2

end State

/-! ## Loops -/

/-- The account of a computation compares it with itself. -/
def toComparison (A : Account m ω) : Comparison m m ω where
  Match x _ v a v' := A.Does x v a v'
  match_pure := A.does_pure
  match_bind := A.does_bind

/-- A loop with a result that goes along. -/
theorem exists_foldlM {P : Nat → β → ω → Prop} {f : β → Nat → m β} {n : Nat}
    (hf : ∀ i b v, i < n → P i b v → ∃ b' v', A.Does (f b i) v b' v' ∧ P (i + 1) b' v')
    {b : β} (h : P 0 b v) :
    ∃ b' v', A.Does ((List.range n).foldlM f b) v b' v' ∧ P n b' v' :=
  A.toComparison.exists_foldlM (g := f) hf h

/-- A loop without a result. -/
theorem exists_forM {P : Nat → ω → Prop} {f : Nat → m Unit} {n : Nat}
    (hf : ∀ i v, i < n → P i v → ∃ v', A.Does (f i) v () v' ∧ P (i + 1) v') (h : P 0 v) :
    ∃ v', A.Does ((List.range n).forM f) v () v' ∧ P n v' :=
  A.toComparison.exists_forM (g := f) hf h

/-- Questions that change nothing are answered one after the other. -/
theorem does_allM {f : Nat → m Bool} {g : Nat → Bool} {l : List Nat}
    (hf : ∀ i ∈ l, A.Does (f i) v (g i) v) : A.Does (Matrix.allM f l) v (l.all g) v := by
  induction l with
  | nil => exact A.does_pure true v
  | cons i l ih =>
    refine A.does_bind (hf i List.mem_cons_self) ?_
    rw [List.all_cons]
    cases g i with
    | true => exact ih fun j hj => hf j (List.mem_cons_of_mem i hj)
    | false => exact A.does_pure false v

end Account

end DemandPaging
