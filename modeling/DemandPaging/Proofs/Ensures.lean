import DemandPaging.Proofs.Yields
import Mathlib.Order.Defs.Unbundled

/-!
# Steps that may stop

`x.Ensures s Q R` says what holds when the step `x` is over, whichever way it ended: `Q` of the
result and the state if it ran to its end, `R` of the stop and the state if it stopped. Unlike
`Yields` it leaves open which of the two happens. A step whose outcome is known is used through its
account, by `Yields.ensures_bind`; only the steps that stop under a condition need rules of their
own.
-/

namespace DemandPaging.Step

variable {σ α β : Type} {s s' : σ} {a : α} {es : Array Event}
  {P Q : α → σ → Prop} {R R' : Stop → σ → Prop} {Q' : β → σ → Prop}

/-- `Q` holds if the step runs to its end, `R` if it stops, whatever was reported before. -/
def Ensures (x : Step σ α) (s : σ) (Q : α → σ → Prop) (R : Stop → σ → Prop) : Prop :=
  ∀ journal, match x ⟨s, journal⟩ with
    | .ok a t => Q a t.state
    | .error e t => R e t.state

theorem Ensures.of_ok {x : Step σ α} (h : x.Ensures s Q R) {journal : Array Event} {t : Traced σ}
    (hx : x ⟨s, journal⟩ = .ok a t) : Q a t.state := by
  have := h journal
  rwa [hx] at this

theorem Ensures.of_error {x : Step σ α} (h : x.Ensures s Q R) {journal : Array Event} {e : Stop}
    {t : Traced σ} (hx : x ⟨s, journal⟩ = .error e t) : R e t.state := by
  have := h journal
  rwa [hx] at this

/-- A step that does not run to its end stops. -/
theorem Ensures.exists_error {x : Step σ α} (h : x.Ensures s (fun _ _ => False) R)
    (journal : Array Event) : ∃ e t, x ⟨s, journal⟩ = .error e t ∧ R e t.state := by
  cases hx : x ⟨s, journal⟩ with
  | ok a t => exact (h.of_ok hx).elim
  | error e t => exact ⟨e, t, rfl, h.of_error hx⟩

/-- What holds both ways holds of the state that is left behind. -/
theorem Ensures.state_after {x : Step σ α} {I : σ → Prop} (h : x.Ensures s (fun _ => I) fun _ => I)
    (journal : Array Event) : I (x.after ⟨s, journal⟩).state := by
  unfold after
  cases hx : x ⟨s, journal⟩ with
  | ok a t => exact h.of_ok hx
  | error e t => exact h.of_error hx

theorem Ensures.mono {x : Step σ α} (h : x.Ensures s P R) (hgo : ∀ a t, P a t → Q a t)
    (hstop : ∀ e t, R e t → R' e t) : x.Ensures s Q R' := by
  intro journal
  have := h journal
  split at this
  · exact hgo _ _ this
  · exact hstop _ _ this

/-- One account of the end of a step and another one of its stops. -/
theorem Ensures.of_end_of_stop {x : Step σ α} (hgo : x.Ensures s P R) (hstop : x.Ensures s Q R') :
    x.Ensures s P R' := by
  intro journal
  cases hrun : x ⟨s, journal⟩ with
  | ok a t => exact hgo.of_ok hrun
  | error e t => exact hstop.of_error hrun

theorem Ensures.bind {x : Step σ α} {f : α → Step σ β} (hx : x.Ensures s P R)
    (hf : ∀ a t, P a t → (f a).Ensures t Q' R) : (x >>= f).Ensures s Q' R := by
  intro journal
  have hhead := hx journal
  change match EStateM.bind x f ⟨s, journal⟩ with
    | .ok b t => Q' b t.state
    | .error e t => R e t.state
  unfold EStateM.bind
  cases hrun : x ⟨s, journal⟩ with
  | ok a t =>
    rw [hrun] at hhead
    exact hf a t.state hhead t.journal
  | error e t =>
    rw [hrun] at hhead
    exact hhead

/-- An attempt runs to its end, however the attempted step ended. -/
theorem Ensures.attempt {x : Step σ α} (h : x.Ensures s P R) :
    (attempt x).Ensures s (fun result t => match result with
      | .ok a => P a t
      | .error e => R e t) R' := by
  intro journal
  have := h journal
  unfold Step.attempt
  cases hrun : x ⟨s, journal⟩ with
  | ok a t =>
    rw [hrun] at this
    exact this
  | error e t =>
    rw [hrun] at this
    exact this

/-- A step that does nothing but stop. -/
theorem ensures_throw {e : Stop} (h : R e s) : (throw e : Step σ α).Ensures s Q R :=
  fun _ => h

/-- A step that is known to run to its end. -/
theorem Yields.ensures {x : Step σ α} (h : x.Yields s a s' es) (hq : Q a s') : x.Ensures s Q R := by
  intro journal
  rw [h journal]
  exact hq

/-- A first step that is known to run to its end. -/
theorem Yields.ensures_bind {x : Step σ α} {f : α → Step σ β} (hx : x.Yields s a s' es)
    (hf : (f a).Ensures s' Q' R) : (x >>= f).Ensures s Q' R := by
  refine (hx.ensures (Q := fun b t => b = a ∧ t = s') ⟨rfl, rfl⟩).bind ?_
  rintro _ _ ⟨rfl, rfl⟩
  exact hf

theorem ensures_refuse {o : Option PagerError} {Q : Unit → σ → Prop} (hgo : o = none → Q () s)
    (hstop : ∀ e, o = some e → R (.error e) s) : (refuse o).Ensures s Q R := by
  intro journal
  cases o with
  | none => exact hgo rfl
  | some e => exact hstop e rfl

/-- A refusal in front of other steps. -/
theorem ensures_refuse_bind {o : Option PagerError} {f : Unit → Step σ β}
    (hgo : o = none → (f ()).Ensures s Q' R) (hstop : ∀ e, o = some e → R (.error e) s) :
    (refuse o >>= f).Ensures s Q' R := by
  refine (ensures_refuse (Q := fun _ t => t = s ∧ o = none) (fun h => ⟨rfl, h⟩) hstop).bind ?_
  rintro ⟨⟩ _ ⟨rfl, h⟩
  exact hgo h

/-! ## Values that may be missing -/

theorem ensures_ofExcept_bind {r : Except PagerError α} {f : α → Step σ β}
    (hgo : ∀ a, r = .ok a → (f a).Ensures s Q' R) (hstop : ∀ e, r = .error e → R (.error e) s) :
    (ofExcept r >>= f).Ensures s Q' R := by
  cases r with
  | ok a => exact (yields_ofExcept rfl s).ensures_bind (hgo a rfl)
  | error e =>
    intro journal
    exact hstop e rfl

theorem ensures_ofChecked_bind {r : Except Panic α} {f : α → Step σ β}
    (hgo : ∀ a, r = .ok a → (f a).Ensures s Q' R) (hstop : ∀ e, r = .error e → R (.panic e) s) :
    (ofChecked r >>= f).Ensures s Q' R := by
  cases r with
  | ok a => exact (yields_ofChecked rfl s).ensures_bind (hgo a rfl)
  | error e =>
    intro journal
    exact hstop e rfl

theorem ensures_ofOutcome_bind {r : Except Stop α} {f : α → Step σ β}
    (hgo : ∀ a, r = .ok a → (f a).Ensures s Q' R) (hstop : ∀ e, r = .error e → R e s) :
    (ofOutcome r >>= f).Ensures s Q' R := by
  cases r with
  | ok a => exact (yields_ofOutcome rfl s).ensures_bind (hgo a rfl)
  | error e =>
    intro journal
    exact hstop e rfl

/-! ## Steps that keep a relation -/

section Keeps

variable {r : σ → σ → Prop}

/-- However the step ends, the state it leaves is related to the one it started from. -/
def Keeps (r : σ → σ → Prop) (x : Step σ α) : Prop := ∀ s, x.Ensures s (fun _ => r s) fun _ => r s

/-- What is left of such a step. -/
theorem Keeps.state_after {x : Step σ α} (hx : Keeps r x) (s : σ) (journal : Array Event) :
    r s (x.after ⟨s, journal⟩).state :=
  (hx s).state_after journal

theorem Keeps.bind [IsTrans σ r] {x : Step σ α} {f : α → Step σ β} (hx : Keeps r x)
    (hf : ∀ a, Keeps r (f a)) : Keeps r (x >>= f) := by
  intro s
  refine (hx s).bind fun a t ht => ?_
  exact (hf a t).mono (fun _ u hu => IsTrans.trans s t u ht hu) fun _ u hu => IsTrans.trans s t u ht hu

theorem Keeps.attempt {x : Step σ α} (hx : Keeps r x) : Keeps r (attempt x) := by
  intro s
  refine (hx s).attempt.mono (fun result t ht => ?_) fun _ _ ht => ht
  cases result with
  | ok a => exact ht
  | error e => exact ht

theorem keeps_apply {f : σ → α × σ} (h : ∀ s, r s (f s).2) : Keeps r (apply f) := fun s =>
  (yields_apply f s).ensures (h s)

theorem keeps_update {f : σ → σ} (h : ∀ s, r s (f s)) : Keeps r (update f) := fun s =>
  (yields_update f s).ensures (h s)

variable [Std.Refl r]

/-- A step that leaves the state as it is. -/
theorem Keeps.of_unchanged {x : Step σ α}
    (h : ∀ s, x.Ensures s (fun _ t => t = s) fun _ t => t = s) : Keeps r x := by
  intro s
  have hsame (t : σ) (ht : t = s) : r s t := by
    subst ht
    exact Std.Refl.refl t
  exact (h s).mono (fun _ => hsame) fun _ => hsame

theorem keeps_pure (a : α) : Keeps r (pure a : Step σ α) :=
  .of_unchanged fun s => (Yields.pure a s).ensures rfl

theorem keeps_report (e : Event) : Keeps r (report e : Step σ Unit) :=
  .of_unchanged fun s => (yields_report e s).ensures rfl

theorem keeps_query (f : σ → α) : Keeps r (query f) :=
  .of_unchanged fun s => (yields_query f s).ensures rfl

theorem keeps_fail (e : PagerError) : Keeps r (fail e : Step σ α) :=
  .of_unchanged fun _ _ => rfl

theorem keeps_refuse (o : Option PagerError) : Keeps r (refuse o : Step σ Unit) :=
  .of_unchanged fun _ => ensures_refuse (fun _ => rfl) fun _ _ => rfl

theorem keeps_ofExcept (x : Except PagerError α) : Keeps r (ofExcept x : Step σ α) := by
  refine .of_unchanged fun s => ?_
  cases x with
  | ok a => exact (yields_ofExcept rfl s).ensures rfl
  | error e => exact fun _ => rfl

theorem keeps_ofChecked (x : Except Panic α) : Keeps r (ofChecked x : Step σ α) := by
  refine .of_unchanged fun s => ?_
  cases x with
  | ok a => exact (yields_ofChecked rfl s).ensures rfl
  | error e => exact fun _ => rfl

end Keeps

/-! ## Steps that agree -/

/-- The steps do the same from state `s`, whatever was reported before. -/
def Agree (x y : Step σ α) (s : σ) : Prop := ∀ journal, x ⟨s, journal⟩ = y ⟨s, journal⟩

theorem Agree.refl (x : Step σ α) (s : σ) : Agree x x s := fun _ => rfl

theorem Agree.trans {x y z : Step σ α} (hxy : Agree x y s) (hyz : Agree y z s) : Agree x z s :=
  fun journal => (hxy journal).trans (hyz journal)

/-- First steps that agree, in front of the same others. -/
theorem Agree.bind {x y : Step σ α} (h : Agree x y s) (f : α → Step σ β) :
    Agree (x >>= f) (y >>= f) s := by
  intro journal
  change EStateM.bind x f _ = EStateM.bind y f _
  unfold EStateM.bind
  rw [h journal]

/-- The same first step, in front of others that agree wherever it leads to. -/
theorem Ensures.agree_bind {x : Step σ α} {f g : α → Step σ β} (hx : x.Ensures s P R)
    (hfg : ∀ a t, P a t → Agree (f a) (g a) t) : Agree (x >>= f) (x >>= g) s := by
  intro journal
  change EStateM.bind x f _ = EStateM.bind x g _
  unfold EStateM.bind
  cases hrun : x ⟨s, journal⟩ with
  | ok a t => exact hfg a t.state (hx.of_ok hrun) t.journal
  | error e t => rfl

theorem Yields.agree_bind {x : Step σ α} {f g : α → Step σ β} (hx : x.Yields s a s' es)
    (hfg : Agree (f a) (g a) s') : Agree (x >>= f) (x >>= g) s := by
  refine (hx.ensures (Q := fun b t => b = a ∧ t = s') (R := fun _ _ => True) ⟨rfl, rfl⟩).agree_bind ?_
  rintro _ _ ⟨rfl, rfl⟩
  exact hfg

/-- A first step without effect may be left out. -/
theorem Yields.agree_skip {x : Step σ α} (hx : x.Yields s a s #[]) (f : α → Step σ β) :
    Agree (x >>= f) (f a) s := by
  intro journal
  change EStateM.bind x f _ = _
  rw [EStateM.bind, hx, Array.append_empty]

/-! ## Steps that are rejected -/

/-- The step stops with `e`, after every journal, and leaves no trace. -/
def Rejects (x : Step σ α) (s : σ) (e : Stop) : Prop :=
  ∀ journal, x ⟨s, journal⟩ = .error e ⟨s, journal⟩

/-- What follows a rejected step is not reached. -/
theorem Rejects.bind {x : Step σ α} {e : Stop} (h : x.Rejects s e) (f : α → Step σ β) :
    (x >>= f).Rejects s e := by
  intro journal
  change EStateM.bind x f _ = _
  rw [EStateM.bind, h journal]

/-- A first step without effect, in front of a rejected one. -/
theorem Yields.rejects_bind {x : Step σ α} {f : α → Step σ β} {e : Stop} (hx : x.Yields s a s #[])
    (hf : (f a).Rejects s e) : (x >>= f).Rejects s e := fun journal =>
  (hx.agree_skip f journal).trans (hf journal)

/-- A rejected step leaves the state as it is. -/
theorem Rejects.state_after {x : Step σ α} {e : Stop} (h : x.Rejects s e) (journal : Array Event) :
    (x.after ⟨s, journal⟩).state = s := by
  simp only [after, h journal]

theorem rejects_fail (e : PagerError) (s : σ) : (fail e : Step σ α).Rejects s (.error e) :=
  fun _ => rfl

theorem rejects_refuse {o : Option PagerError} {e : PagerError} (h : o = some e) (s : σ) :
    (refuse o).Rejects s (.error e) := by
  subst h
  exact fun _ => rfl

/-- Looking for a reason to stop succeeds exactly if there is none. -/
theorem yields_query_refuse_iff (f : σ → Option PagerError) :
    (query f >>= refuse).Yields s () s #[] ↔ f s = none := by
  refine ⟨fun h => ?_, fun h => (yields_query f s).bind_silent (yields_refuse h s)⟩
  cases hf : f s with
  | none => rfl
  | some e =>
    have hstop := (yields_query f s).rejects_bind (rejects_refuse hf s) #[]
    exact absurd ((h #[]).symm.trans hstop) nofun

/-- Looking for a reason to stop stops with the one that is found. -/
theorem rejects_query_refuse_iff (f : σ → Option PagerError) {e : PagerError} :
    (query f >>= refuse).Rejects s (.error e) ↔ f s = some e := by
  refine ⟨fun h => ?_, fun h => (yields_query f s).rejects_bind (rejects_refuse h s)⟩
  have hrun : refuse (f s) ⟨s, #[]⟩ = .error (.error e) ⟨s, #[]⟩ := h #[]
  cases hf : f s with
  | none =>
    rw [hf] at hrun
    exact absurd hrun nofun
  | some e' =>
    rw [hf] at hrun
    cases hrun
    rfl

theorem rejects_ofExcept {r : Except PagerError α} {e : PagerError} (h : r = .error e) (s : σ) :
    (ofExcept r).Rejects s (.error e) := by
  subst h
  exact fun _ => rfl

theorem rejects_ofChecked {r : Except Panic α} {e : Panic} (h : r = .error e) (s : σ) :
    (ofChecked r).Rejects s (.panic e) := by
  subst h
  exact fun _ => rfl

end DemandPaging.Step
