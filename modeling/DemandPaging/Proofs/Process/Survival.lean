import DemandPaging.Proofs.Memory.Refusal
import DemandPaging.Proofs.Process.View

/-!
# What a process shows as long as it goes on

Any call to the host may be refused, and then the step that made it stops. Up to that moment a
program sees what it sees on a host that refuses nothing: a fault that was resolved is resolved for
good, and a tick withdraws rights however far its pass came. So each step of a process admits the
same outcome on every host, and no other.
-/

namespace DemandPaging

open Step

namespace Memory

variable {host : Host} {s : Memory} {f : FlatMemory} {p : Page} {a : Access}

theorem Shows.ensures_handleFault (h : s.Shows f) (p : Page) (code : FaultCode) :
    (handleFault host p code).Ensures s
      (fun kind t => FaultKind.classify p (s.entry p) code = .ok kind ∧ t = s.resolved p kind ∧
        t.Shows f) fun _ _ => True := by
  refine (h.sound.robust.ensures_handleFault p code).mono ?_ fun _ _ _ => trivial
  rintro kind _ ⟨hk, rfl, -⟩
  exact ⟨hk, rfl, h.resolved hk⟩

/-- Where no fault failed, the access is permitted in the end, whatever the bound was. -/
theorem Shows.ensures_resolve (h : s.Shows f) (p : Page) (a : Access) (bound : Nat) :
    (resolve host p (hostDenial p a) bound).Ensures s
      (fun r t => r.stopped = none → t.Shows f ∧ a.allowedBy (t.entry p).permission = true)
      fun _ _ => True := by
  induction bound generalizing s with
  | zero =>
    cases ha : a.allowedBy (s.entry p).permission with
    | true => exact (h.sound.yields_resolve host ha 0).ensures fun _ => ⟨h, ha⟩
    | false =>
      refine (yields_query _ s).ensures_bind ?_
      rw [h.sound.hostDenial_eq_some ha]
      exact (Yields.pure _ s).ensures nofun
  | succ bound ih =>
    cases ha : a.allowedBy (s.entry p).permission with
    | true => exact (h.sound.yields_resolve host ha (bound + 1)).ensures fun _ => ⟨h, ha⟩
    | false =>
      refine (yields_query _ s).ensures_bind ?_
      rw [h.sound.hostDenial_eq_some ha]
      refine (h.ensures_handleFault p .accessDenied).attempt.bind fun result t ht => ?_
      cases result with
      | error stop => exact (Yields.pure _ t).ensures nofun
      | ok kind =>
        obtain ⟨-, -, hs⟩ := ht
        refine (ih hs).bind fun r u hu => ?_
        exact (Yields.pure _ u).ensures hu

theorem ensures_survive {σ : Type} {Q : Unit → σ → Prop} {s : σ} {stopped : Option Stop}
    (hgo : stopped = none → Q () s) : (survive stopped).Ensures s Q fun _ _ => True := by
  cases stopped with
  | none => exact (Yields.pure () s).ensures (hgo rfl)
  | some stop =>
    cases stop with
    | error e =>
      refine (yields_report (.fatal e) s).ensures_bind ?_
      exact (yields_report .gaveUp s).ensures_bind (ensures_throw trivial)
    | panic p => exact ensures_throw trivial
    | killed s => exact ensures_throw trivial

theorem Shows.ensures_reach (h : s.Shows f) (p : Page) (a : Access) :
    (reach host p a).Ensures s
      (fun _ t => t.Shows f ∧ a.allowedBy (t.entry p).permission = true) fun _ _ => True := by
  refine (h.ensures_resolve p a a.faultBound).bind fun r t ht => ?_
  exact ensures_survive ht

theorem Shows.ensures_settle (h : s.Shows f) (p : Page) (code : FaultCode) :
    (settle host p code).Ensures s (fun _ t => t.Shows f) fun _ _ => True := by
  refine (h.ensures_handleFault p code).attempt.bind fun result t ht => ?_
  cases result with
  | ok kind => exact (Yields.pure () t).ensures ht.2.2
  | error stop => exact ensures_survive nofun

theorem Shows.ensures_tick (h : s.Shows f) :
    (tick host).Ensures s (fun _ t => t.Shows f) fun _ _ => True := by
  intro journal
  rw [tick_eq]
  cases (s.tickPass host).refused with
  | none => exact h.ticked host
  | some e => trivial

end Memory

namespace UserProcess

variable {host : Host} {u : UserProcess} {s : Memory} {v : View} {f : FlatMemory} {α : Type}

/-- A step on the managed memory is one of the process. -/
theorem Holds.ensures_run {Q : α → Memory → Prop} (h : u.Holds s v) {x : Step Memory α}
    (hx : x.Ensures s Q fun _ _ => True) (hQ : ∀ a t, Q a t → t.Shows f) :
    (UserProcess.run x).Ensures u
      (fun a t => ∃ s', t.Holds s' { v with toFlatMemory := f } ∧ Q a s') fun _ _ => True := by
  refine (UserProcess.ensures_run hx h.active).mono ?_ fun _ _ _ => trivial
  rintro a t ⟨s', rfl, hs⟩
  exact ⟨s', ⟨rfl, h.pagers, hQ a s' hs⟩, hs⟩

/-! ## The timer signal -/

theorem admits_raise (host : Host) (v : View) : (raise host).Admits Shows v () v := by
  rintro u ⟨s, h⟩
  have hraised : ({ u with alarm := u.alarm.raise.2 } : UserProcess).Holds s v := h.of_same rfl rfl
  refine (yields_apply _ u).ensures_bind ?_
  dsimp only
  cases u.alarm.raise.1 with
  | false => exact (Yields.pure () _).ensures ⟨rfl, s, hraised⟩
  | true =>
    refine (yields_query _ _).ensures_bind ?_
    rw [if_pos (by rw [h.active]; rfl)]
    refine (hraised.ensures_run h.memory.ensures_tick fun _ _ ht => ht).attempt.bind fun result t ht => ?_
    cases result with
    | error stop => exact Memory.ensures_survive nofun
    | ok _ =>
      obtain ⟨s', h', -⟩ := ht
      exact (Yields.pure () t).ensures ⟨rfl, s', h'⟩

theorem admits_raiseTimes (host : Host) (v : View) (n : Nat) :
    (raiseTimes host n).Admits Shows v () v := by
  induction n with
  | zero => exact .pure () v
  | succ n ih => exact (admits_raise host v).bind ih

/-- Signals between two moves are not seen by the program. -/
theorem admits_pause (host : Host) (v : View) : (pause host).Admits Shows v () v := by
  rintro u ⟨s, h⟩
  refine (yields_apply _ u).ensures_bind ?_
  exact admits_raiseTimes host v _ _ ⟨s, h.of_same rfl rfl⟩

/-! ## Accesses -/

/-- An access that was brought about is permitted. -/
theorem Holds.ensures_bringAbout (h : u.Holds s v) (host : Host) (p : Page) (a : Access)
    (denied : Option FaultCode) (timing : List Nat) :
    (UserProcess.bringAbout host p a denied timing).Ensures u
      (fun _ t => ∃ s', t.Holds s' v ∧ a.allowedBy (s'.entry p).permission = true)
      fun _ _ => True := by
  have hreach {u : UserProcess} {s : Memory} (h : u.Holds s v) : Ensures (do
      UserProcess.run (Memory.reach host p a)
      return ([] : List Nat)) u
      (fun _ t => ∃ s', t.Holds s' v ∧ a.allowedBy (s'.entry p).permission = true)
      fun _ _ => True := by
    refine (h.ensures_run (h.memory.ensures_reach p a) fun _ _ ht => ht.1).bind fun _ t ht => ?_
    obtain ⟨s', h', -, hpermitted⟩ := ht
    exact (Yields.pure _ t).ensures ⟨s', h', hpermitted⟩
  have hsettle {u : UserProcess} {s : Memory} (h : u.Holds s v) (code : FaultCode) :
      (UserProcess.run (Memory.settle host p code)).Ensures u (fun _ t => ∃ s', t.Holds s' v)
        fun _ _ => True :=
    (h.ensures_run (h.memory.ensures_settle p code) fun _ _ ht => ht).mono
      (fun _ _ ⟨s', h', _⟩ => ⟨s', h'⟩) fun _ _ _ => trivial
  induction timing generalizing u s denied with
  | nil =>
    cases denied with
    | none => exact hreach h
    | some code => exact (hsettle h code).bind fun _ _ ⟨_, h'⟩ => hreach h'
  | cons n timing ih =>
    cases denied with
    | none =>
      refine (admits_raiseTimes host v n u ⟨s, h⟩).bind ?_
      rintro _ t ⟨-, s', h'⟩
      obtain ⟨u₁, htry, h₁⟩ := h'.run (yields_query (Memory.hostDenial p a) s') h'.memory
      refine htry.ensures_bind ?_
      cases ha : a.allowedBy (s'.entry p).permission with
      | true =>
        rw [h₁.memory.sound.hostDenial_eq_none ha]
        exact (Yields.pure _ u₁).ensures ⟨s', h₁, ha⟩
      | false =>
        rw [h₁.memory.sound.hostDenial_eq_some ha]
        exact ih h₁ (some .accessDenied)
    | some code =>
      refine (admits_raiseTimes host v n u ⟨s, h⟩).bind ?_
      rintro _ t ⟨-, s', h'⟩
      exact (hsettle h' code).bind fun _ _ ⟨_, h''⟩ => ih h'' none

theorem Holds.ensures_reach (h : u.Holds s v) (host : Host) (p : Page) (a : Access) :
    (UserProcess.reach host p a).Ensures u
      (fun _ t => ∃ s', t.Holds s' v ∧ a.allowedBy (s'.entry p).permission = true)
      fun _ _ => True := by
  have htaken : ({ u with timing := [] } : UserProcess).Holds s v := h.of_same rfl rfl
  refine (yields_apply _ u).ensures_bind ?_
  refine (htaken.ensures_bringAbout host p a none u.timing).bind fun rest t ht => ?_
  obtain ⟨s', h', hpermitted⟩ := ht
  exact (yields_update _ t).ensures ⟨s', h'.of_same rfl rfl, hpermitted⟩

/-- An access to position `k` of the range does what it does where it is permitted. -/
theorem admits_access {x : Address} {k : Nat} {a : Access}
    {carryOut : Page → Offset → Step Memory α} {r : α}
    (hx : x.toNat = v.range.base.toNat + k) (hk : k < memorySize)
    (hcarry : ∀ s p i, s.Shows v.toFlatMemory → p.val * pageSize + i.val = k → x.pageOffset = i →
      a.allowedBy (s.entry p).permission = true →
      ∃ s', (carryOut p i).Yields s r s' #[] ∧ s'.Shows f) :
    (access host x a carryOut).Admits Shows v r { v with toFlatMemory := f } := by
  rintro u ⟨s, h⟩
  obtain ⟨p, i, hlocate, -, hi, hplace⟩ := h.memory.exists_locate hx hk
  obtain ⟨u₁, hfound, h₁⟩ := h.run hlocate h.memory
  refine hfound.ensures_bind ((h₁.ensures_reach host p a).bind fun _ t ht => ?_)
  obtain ⟨s₂, h₂, hpermitted⟩ := ht
  obtain ⟨s', hdone, hs'⟩ := hcarry s₂ p i h₂.memory hplace hi hpermitted
  obtain ⟨u', hrun, h'⟩ := h₂.run hdone hs'
  exact hrun.ensures ⟨rfl, s', h'⟩

/-- On every host the steps that run to their end are followed. -/
theorem serves_partly (host : Host) : Serves host (.partly Shows) where
  of_refines := Refines.admits
  access := admits_access
  pause := admits_pause host

end UserProcess

end DemandPaging
