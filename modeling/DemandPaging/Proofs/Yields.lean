import DemandPaging.Step

/-!
# Steps that run to their end

`x.Yields s a s' es` is the complete account of a run of the step `x` from
state `s`: it stops nowhere, hands out `a`, leaves the state `s'` and reports
exactly `es`. What was reported before the run makes no difference to it. Each
way of building a step has one rule below, so that the account of a procedure
is put together in the order of its body.
-/

namespace DemandPaging.Step

variable {σ α β : Type} {s s' s₁ : σ} {a : α} {b : β} {es es₁ es₂ : Array Event}

/-- The step runs to its end in `s'`, hands out `a` and reports `es`, after every journal. -/
def Yields (x : Step σ α) (s : σ) (a : α) (s' : σ) (es : Array Event) : Prop :=
  ∀ journal, x ⟨s, journal⟩ = .ok a ⟨s', journal ++ es⟩

/-- A step that leaves the journal alone reports nothing. -/
theorem Yields.silent {x : Step σ α} (h : ∀ journal, x ⟨s, journal⟩ = .ok a ⟨s', journal⟩) :
    x.Yields s a s' #[] := by
  intro journal
  rw [Array.append_empty]
  exact h journal

/-- A step without effect. -/
theorem Yields.pure (a : α) (s : σ) : Yields (Pure.pure a) s a s #[] :=
  .silent fun _ => rfl

/-- Two steps in a row report what the first and then what the second reports. -/
theorem Yields.bind {x : Step σ α} {f : α → Step σ β} (hx : x.Yields s a s₁ es₁)
    (hf : (f a).Yields s₁ b s' es₂) : Yields (x >>= f) s b s' (es₁ ++ es₂) := by
  intro journal
  have hrest : (x >>= f) ⟨s, journal⟩ = f a ⟨s₁, journal ++ es₁⟩ := by
    change EStateM.bind x f _ = _
    rw [EStateM.bind, hx]
  rw [hrest, hf, Array.append_assoc]

/-- A first step without a report leaves the reports to the rest. -/
theorem Yields.bind_silent {x : Step σ α} {f : α → Step σ β} (hx : x.Yields s a s₁ #[])
    (hf : (f a).Yields s₁ b s' es) : Yields (x >>= f) s b s' es := by
  simpa only [Array.empty_append] using hx.bind hf

/-- A last step without a report adds nothing to the reports before it. -/
theorem Yields.bind_last {x : Step σ α} {f : α → Step σ β} (hx : x.Yields s a s₁ es)
    (hf : (f a).Yields s₁ b s' #[]) : Yields (x >>= f) s b s' es := by
  simpa only [Array.append_empty] using hx.bind hf

theorem yields_report (e : Event) (s : σ) : (report e).Yields s () s #[e] := fun _ => rfl

theorem yields_query (f : σ → α) (s : σ) : (query f).Yields s (f s) s #[] :=
  .silent fun _ => rfl

theorem yields_update (f : σ → σ) (s : σ) : (update f).Yields s () (f s) #[] :=
  .silent fun _ => rfl

theorem yields_apply (f : σ → α × σ) (s : σ) : (apply f).Yields s (f s).1 (f s).2 #[] :=
  .silent fun _ => rfl

/-- Nothing is refused. -/
theorem yields_refuse {o : Option PagerError} (h : o = none) (s : σ) :
    (refuse o).Yields s () s #[] := by
  subst h
  exact .silent fun _ => rfl

theorem yields_ofExcept {r : Except PagerError α} (h : r = .ok a) (s : σ) :
    (ofExcept r).Yields s a s #[] := by
  subst h
  exact .silent fun _ => rfl

theorem yields_ofChecked {r : Except Panic α} (h : r = .ok a) (s : σ) :
    (ofChecked r).Yields s a s #[] := by
  subst h
  exact .silent fun _ => rfl

theorem yields_ofOutcome {r : Except Stop α} (h : r = .ok a) (s : σ) :
    (ofOutcome r).Yields s a s #[] := by
  subst h
  exact .silent fun _ => rfl

/-- A step that runs to its end is attempted with success. -/
theorem Yields.attempt {x : Step σ α} (h : x.Yields s a s' es) :
    (attempt x).Yields s (.ok a) s' es := by
  intro journal
  simp only [Step.attempt, h journal]

/-- What is left is what the account says. -/
theorem Yields.after_eq {x : Step σ α} (h : x.Yields s a s' es) (journal : Array Event) :
    x.after ⟨s, journal⟩ = ⟨s', journal ++ es⟩ := by
  simp only [after, h journal]

/-- The state that is left is the last one of the account. -/
theorem Yields.state_after {x : Step σ α} (h : x.Yields s a s' es) (journal : Array Event) :
    (x.after ⟨s, journal⟩).state = s' := by
  rw [h.after_eq]

/-- What a step hands out and the state it leaves, or why it stopped. -/
def outcome (x : Step σ α) (s : σ) : Except Stop (α × σ) :=
  match x ⟨s, #[]⟩ with
  | .ok a t => .ok (a, t.state)
  | .error e _ => .error e

theorem Yields.outcome {x : Step σ α} (h : x.Yields s a s' es) : x.outcome s = .ok (a, s') := by
  simp only [Step.outcome, h #[]]

/-- A step does one thing only. -/
theorem Yields.unique {x : Step σ α} {a' : α} {t : σ} (h : x.Yields s a s' es)
    (h' : x.Yields s a' t es₁) : a = a' ∧ s' = t := by
  have hsame := h.outcome.symm.trans h'.outcome
  rwa [Except.ok.injEq, Prod.mk.injEq] at hsame

/-- What a step reports, whether it runs to its end or stops. -/
def reports (x : Step σ α) (s : σ) : List Event := (x.after ⟨s, #[]⟩).journal.toList

theorem Yields.reports {x : Step σ α} (h : x.Yields s a s' es) : x.reports s = es.toList := by
  simp only [Step.reports, after, h #[], Array.empty_append]

end DemandPaging.Step
