import DemandPaging.Proofs.Matrix.Account
import DemandPaging.Proofs.Memory.Consistency
import DemandPaging.Proofs.Memory.Shows
import DemandPaging.Proofs.Process.Sessions

/-!
# What a process with a pager shows

While the host refuses nothing, a program cannot tell that its memory is paged:
`UserProcess.Shows` relates the process to the flat memory of its session, and
each step is followed on that view. The timer signal may be raised before every
move of an access. It withdraws rights at most, so an access that was denied is
still denied when its fault is handled, and it is permitted once the signal
stays away.
-/

namespace DemandPaging

open Step

/-- What a program can tell of its process while a pager is active. -/
structure View extends FlatMemory where
  /-- The regions that were handed out by number. -/
  regions : Array Region
  /-- The pagers that the program holds. -/
  pagers : List Pager

/-- A host that refuses nothing to a process that starts a pager and shuts it down. -/
structure Host.Hospitable (host : Host) : Prop extends host.Welcoming where
  /-- The timer is stopped. -/
  stopTimer : host.stopTimer = none
  /-- The former handlers are put back. -/
  restore : ∀ which, host.restore which = none

/-- The host that refuses nothing is hospitable. -/
theorem Host.hospitable_willing : Host.willing.Hospitable where
  toWelcoming := Host.welcoming_willing
  stopTimer := rfl
  restore _ := rfl

namespace UserProcess

variable {host : Host} {config : Config} {u u' : UserProcess} {s s' : Memory} {v : View}
  {f : FlatMemory} {α : Type}

/-- The process keeps the memory `s`, and shows `v`. -/
structure Holds (u : UserProcess) (s : Memory) (v : View) : Prop where
  /-- The slot is filled. -/
  active : u.active = some ⟨s, v.regions⟩
  /-- The program holds the pagers of the view. -/
  pagers : u.pagers = v.pagers
  /-- The memory shows what the view has. -/
  memory : s.Shows v.toFlatMemory

/-- The process shows `v`. -/
def Shows (u : UserProcess) (v : View) : Prop := ∃ s, u.Holds s v

/-- Nothing else of a process is shown. -/
theorem Holds.of_same (h : u.Holds s v) (ha : u'.active = u.active) (hp : u'.pagers = u.pagers) :
    u'.Holds s v :=
  ⟨ha.trans h.active, hp.trans h.pagers, h.memory⟩

/-- A step on the managed memory is one of the process. -/
theorem Holds.run (h : u.Holds s v) {x : Step Memory α} {a : α} {es : Array Event}
    (hx : x.Yields s a s' es) (hs : s'.Shows f) :
    ∃ u', (UserProcess.run x).Yields u a u' es ∧ u'.Holds s' { v with toFlatMemory := f } := by
  obtain ⟨active, pagers, ended, alarm, timing⟩ := u
  obtain ⟨ha, hp, hm⟩ := h
  cases ha
  refine ⟨⟨some ⟨s', v.regions⟩, pagers, ended, alarm, timing⟩, ?_, rfl, hp, hs⟩
  intro journal
  dsimp only [UserProcess.run]
  rw [hx journal]

/-! ## The timer signal -/

/-- Every page has the rights that it had, or none. -/
def Lowered (s t : Memory) : Prop :=
  ∀ p, (t.entry p).permission = (s.entry p).permission ∨ (t.entry p).permission = .noAccess

theorem lowered_refl (s : Memory) : Lowered s s := fun _ => Or.inl rfl

theorem Lowered.trans {t : Memory} (h : Lowered s s') (h' : Lowered s' t) : Lowered s t := by
  intro p
  obtain hp | hp := h' p
  · obtain hs | hs := h p
    · exact Or.inl (hp.trans hs)
    · exact Or.inr (hp.trans hs)
  · exact Or.inr hp

/-- What is denied stays denied while rights are withdrawn. -/
theorem Lowered.denied (h : Lowered s s') {p : Page} {a : Access}
    (ha : a.allowedBy (s.entry p).permission = false) :
    a.allowedBy (s'.entry p).permission = false :=
  Access.not_allowedBy_of_withdrawn ha (h p)

/-- A timer signal that is raised shows at most in the rights of pages. -/
theorem Holds.raise (hh : host.Obliging) (h : u.Holds s v) :
    ∃ u' s' es, (UserProcess.raise host).Yields u () u' es ∧ u'.Holds s' v ∧ Lowered s s' := by
  have hraised : ({ u with alarm := u.alarm.raise.2 } : UserProcess).Holds s v := h.of_same rfl rfl
  cases hd : u.alarm.raise.1 with
  | false =>
    refine ⟨_, s, #[], (yields_apply _ u).bind_silent ?_, hraised, lowered_refl s⟩
    dsimp only
    rw [hd]
    exact Yields.pure () _
  | true =>
    obtain ⟨u', htick, hu'⟩ := hraised.run (Memory.yields_tick hh h.memory.sound) (h.memory.ticked host)
    refine ⟨u', s.ticked host, s.tickEvents host, (yields_apply _ u).bind_silent ?_, hu',
      h.memory.sound.permission_ticked host⟩
    dsimp only
    rw [hd]
    refine (yields_query _ _).bind_silent ?_
    rw [if_pos (by rw [h.active]; rfl)]
    refine htick.attempt.bind_last ?_
    exact Yields.pure () u'

theorem Holds.raiseTimes (hh : host.Obliging) (h : u.Holds s v) (n : Nat) :
    ∃ u' s' es, (UserProcess.raiseTimes host n).Yields u () u' es ∧ u'.Holds s' v ∧ Lowered s s' := by
  induction n generalizing u s with
  | zero => exact ⟨u, s, #[], Yields.pure () u, h, lowered_refl s⟩
  | succ n ih =>
    obtain ⟨u₁, s₁, es₁, hraise, h₁, hlow₁⟩ := h.raise hh
    obtain ⟨u', s', es', hrest, h', hlow'⟩ := ih h₁
    exact ⟨u', s', es₁ ++ es', hraise.bind hrest, h', hlow₁.trans hlow'⟩

/-- Signals between two moves are not seen by the program. -/
theorem refines_pause (hh : host.Obliging) (v : View) : (pause host).Refines Shows v () v := by
  rintro u ⟨s, h⟩
  have hpopped : ({ u with timing := u.timing.tail } : UserProcess).Holds s v := h.of_same rfl rfl
  obtain ⟨u', s', es, hraise, h', -⟩ := hpopped.raiseTimes hh (u.timing.headD 0)
  exact ⟨u', es, (yields_apply _ u).bind_silent hraise, s', h'⟩

/-! ## Accesses -/

/-- The fault of a denied access is handled. -/
theorem Holds.settle (hh : host.Obliging) (h : u.Holds s v) {p : Page} {a : Access}
    (ha : a.allowedBy (s.entry p).permission = false) :
    ∃ u' s' es, (UserProcess.run (Memory.settle host p .accessDenied)).Yields u () u' es ∧
      u'.Holds s' v := by
  obtain ⟨kind, hk⟩ := Memory.exists_classify ha
  have hsettle : (Memory.settle host p .accessDenied).Yields s () (s.resolved p kind)
      (s.faultEvents p kind) :=
    (Memory.yields_handleFault hh h.memory.sound hk).attempt.bind_last (Yields.pure () _)
  obtain ⟨u', hrun, hu'⟩ := h.run hsettle (h.memory.resolved hk)
  exact ⟨u', s.resolved p kind, _, hrun, hu'⟩

/-- Without further signals the access is brought about. -/
theorem Holds.reachQuietly (hh : host.Obliging) (h : u.Holds s v) (p : Page) (a : Access) :
    ∃ u' s' es, (UserProcess.run (Memory.reach host p a)).Yields u () u' es ∧ u'.Holds s' v ∧
      a.allowedBy (s'.entry p).permission = true := by
  obtain ⟨s', es, hreach, hfaults, hpermitted⟩ := Memory.exists_reach hh h.memory.sound p a
  obtain ⟨u', hrun, hu'⟩ := h.run hreach (hfaults.shows h.memory)
  exact ⟨u', s', es, hrun, hu', hpermitted⟩

/-- An access is brought about however often the timer signal is raised before each move. The
induction is on the timing; a fault that is on its way belongs to an access that is still denied. -/
theorem Holds.bringAbout (hh : host.Obliging) (h : u.Holds s v) (p : Page) (a : Access)
    {denied : Option FaultCode}
    (hdenied : denied = none ∨
      denied = some .accessDenied ∧ a.allowedBy (s.entry p).permission = false)
    (timing : List Nat) :
    ∃ rest u' s' es, (UserProcess.bringAbout host p a denied timing).Yields u rest u' es ∧
      u'.Holds s' v ∧ a.allowedBy (s'.entry p).permission = true := by
  induction timing generalizing u s denied with
  | nil =>
    obtain rfl | ⟨rfl, ha⟩ := hdenied
    · obtain ⟨u', s', es, hreach, h', hpermitted⟩ := h.reachQuietly hh p a
      exact ⟨[], u', s', es, hreach.bind_last (Yields.pure [] u'), h', hpermitted⟩
    · obtain ⟨u₁, s₁, es₁, hsettle, h₁⟩ := h.settle hh ha
      obtain ⟨u', s', es', hreach, h', hpermitted⟩ := h₁.reachQuietly hh p a
      exact ⟨[], u', s', es₁ ++ es', hsettle.bind (hreach.bind_last (Yields.pure [] u')), h',
        hpermitted⟩
  | cons n timing ih =>
    obtain ⟨u₁, s₁, es₁, hraise, h₁, hlow⟩ := h.raiseTimes hh n
    obtain rfl | ⟨rfl, ha⟩ := hdenied
    · obtain ⟨u₂, htry, h₂⟩ := h₁.run (yields_query (Memory.hostDenial p a) s₁) h₁.memory
      cases ha : a.allowedBy (s₁.entry p).permission with
      | true =>
        rw [h₁.memory.sound.hostDenial_eq_none ha] at htry
        exact ⟨timing, u₂, s₁, _, hraise.bind (htry.bind_silent (Yields.pure timing u₂)), h₂, ha⟩
      | false =>
        rw [h₁.memory.sound.hostDenial_eq_some ha] at htry
        obtain ⟨rest, u', s', es', hrest, h', hpermitted⟩ := ih h₂ (Or.inr ⟨rfl, ha⟩)
        exact ⟨rest, u', s', _, hraise.bind (htry.bind_silent hrest), h', hpermitted⟩
    · obtain ⟨u₂, s₂, es₂, hsettle, h₂⟩ := h₁.settle hh (hlow.denied ha)
      obtain ⟨rest, u', s', es', hrest, h', hpermitted⟩ := ih h₂ (Or.inl rfl)
      exact ⟨rest, u', s', _, hraise.bind (hsettle.bind hrest), h', hpermitted⟩

theorem Holds.reach (hh : host.Obliging) (h : u.Holds s v) (p : Page) (a : Access) :
    ∃ u' s' es, (UserProcess.reach host p a).Yields u () u' es ∧ u'.Holds s' v ∧
      a.allowedBy (s'.entry p).permission = true := by
  have htaken : ({ u with timing := [] } : UserProcess).Holds s v := h.of_same rfl rfl
  obtain ⟨rest, u₁, s', es, habout, h₁, hpermitted⟩ :=
    htaken.bringAbout hh p a (Or.inl rfl) u.timing
  refine ⟨{ u₁ with timing := rest }, s', es, ?_, h₁.of_same rfl rfl, hpermitted⟩
  refine (yields_apply _ u).bind_silent ?_
  exact habout.bind_last (yields_update _ u₁)

/-- An access to position `k` of the range does what it does where it is permitted. -/
theorem refines_access (hh : host.Obliging) {x : Address} {k : Nat} {a : Access}
    {carryOut : Page → Offset → Step Memory α} {r : α}
    (hx : x.toNat = v.range.base.toNat + k) (hk : k < memorySize)
    (hcarry : ∀ s p i, s.Shows v.toFlatMemory → p.val * pageSize + i.val = k → x.pageOffset = i →
      a.allowedBy (s.entry p).permission = true →
      ∃ s', (carryOut p i).Yields s r s' #[] ∧ s'.Shows f) :
    (access host x a carryOut).Refines Shows v r { v with toFlatMemory := f } := by
  rintro u ⟨s, h⟩
  obtain ⟨p, i, hlocate, -, hi, hplace⟩ := h.memory.exists_locate hx hk
  obtain ⟨u₁, hfound, h₁⟩ := h.run hlocate h.memory
  obtain ⟨u₂, s₂, es, hreach, h₂, hpermitted⟩ := h₁.reach hh p a
  obtain ⟨s', hdone, hs'⟩ := hcarry s₂ p i h₂.memory hplace hi hpermitted
  obtain ⟨u', hrun, h'⟩ := h₂.run hdone hs'
  exact ⟨u', _, hfound.bind_silent (hreach.bind_last hrun), s', h'⟩

variable {r : Region} {k offset index : Nat}

/-- A byte is loaded from its position. -/
theorem refines_readByte (hh : host.Obliging) (hr : r.Lies v.range k) (hin : offset + 1 ≤ r.length) :
    (readByte host r offset).Refines Shows v (v.bytes (k + offset)) v := by
  obtain ⟨x, hx, hplace, hlt⟩ := hr.exists_address Nat.one_pos hin
  refine (refines_ofChecked hx v).bind (refines_access hh hplace hlt ?_)
  intro s p i hs hk _ ha
  exact ⟨s, hs.yields_fetch hk ha, hs⟩

/-- A byte is stored to its position. -/
theorem refines_writeByte (hh : host.Obliging) (hr : r.Lies v.range k) (hin : offset + 1 ≤ r.length)
    (b : UInt8) : (writeByte host r offset b).Refines Shows v ()
      { v with toFlatMemory := v.store (k + offset) b } := by
  obtain ⟨x, hx, hplace, hlt⟩ := hr.exists_address Nat.one_pos hin
  refine (refines_ofChecked hx v).bind (refines_access hh hplace hlt ?_)
  intro s p i hs hk _ ha
  exact ⟨_, yields_update _ s, hs.stored hk ha b⟩

/-! ## Words, by any account -/

/-- An account of processes that show a view: it covers what is certain to happen, and accesses, which
do what they do where they are permitted. -/
structure Serves (host : Host) (A : Account (Step UserProcess) View) : Prop where
  /-- What is certain to happen does happen. -/
  of_refines : ∀ {α : Type} {x : Step UserProcess α} {v v' : View} {r : α},
    x.Refines Shows v r v' → A.Does x v r v'
  /-- An access to position `k` of the range does what it does where it is permitted. -/
  access : ∀ {α : Type} {v : View} {f : FlatMemory} {x : Address} {k : Nat} {a : Access}
    {carryOut : Page → Offset → Step Memory α} {r : α},
    x.toNat = v.range.base.toNat + k → k < memorySize →
    (∀ s p i, s.Shows v.toFlatMemory → p.val * pageSize + i.val = k → x.pageOffset = i →
      a.allowedBy (s.entry p).permission = true →
      ∃ s', (carryOut p i).Yields s r s' #[] ∧ s'.Shows f) →
    A.Does (access host x a carryOut) v r { v with toFlatMemory := f }
  /-- Signals between two moves are not seen. -/
  pause : ∀ v, A.Does (pause host) v () v

/-- A host that refuses nothing is followed to the end of every step. -/
theorem serves_step (hh : host.Obliging) : Serves host (.step Shows) where
  of_refines := id
  access := refines_access hh
  pause := refines_pause hh

variable {A : Account (Step UserProcess) View}

/-- A word is loaded from its position. -/
theorem Serves.does_readWord (hA : Serves host A) (hr : r.Lies v.range k)
    (hin : index * Region.wordSize + Region.wordSize ≤ r.length) :
    A.Does (readWord host r index) v (v.word (k + index * Region.wordSize)).toInt32 v := by
  obtain ⟨x, hx, hplace, hlt, hpage⟩ := hr.exists_wordAddress hin
  refine A.does_bind (hA.of_refines (refines_ofChecked hx v)) (A.does_bind ?_ (A.does_pure _ v))
  refine hA.access hplace hlt ?_
  rintro s p i hs hk rfl ha
  exact ⟨s, hs.yields_fetchWord hk hpage ha, hs⟩

/-- A word is stored to its position. -/
theorem Serves.does_writeWord (hA : Serves host A) (hr : r.Lies v.range k)
    (hin : index * Region.wordSize + Region.wordSize ≤ r.length) (w : Int32) :
    A.Does (writeWord host r index w) v ()
      { v with toFlatMemory := v.storeWord (k + index * Region.wordSize) w.toUInt32 } := by
  obtain ⟨x, hx, hplace, hlt, hpage⟩ := hr.exists_wordAddress hin
  refine A.does_bind (hA.of_refines (refines_ofChecked hx v)) (hA.access hplace hlt ?_)
  rintro s p i hs hk rfl ha
  exact ⟨_, yields_update _ s, hs.storedWord hk hpage ha _⟩

/-! ## Allocations and ticks -/

/-- A region is allocated behind those in use. -/
theorem refines_allocateRegion {size : Nat} (hroom : Memory.alignUp v.used + size ≤ memorySize) :
    (UserProcess.run (Memory.allocateRegion size)).Refines Shows v (some (v.next size))
      { v with toFlatMemory := v.reserve size } := by
  rintro u ⟨s, h⟩
  obtain ⟨u', hrun, h'⟩ := h.run (h.memory.yields_allocateRegion hroom) (h.memory.reserved size)
  exact ⟨u', _, hrun, _, h'⟩

/-- Nothing is allocated where there is no room. -/
theorem refines_allocateRegion_none {size : Nat}
    (hroom : ¬ Memory.alignUp v.used + size ≤ memorySize) :
    (UserProcess.run (Memory.allocateRegion size)).Refines Shows v none v := by
  rintro u ⟨s, h⟩
  obtain ⟨es, hallocate⟩ := h.memory.exists_allocateRegion_none hroom
  obtain ⟨u', hrun, h'⟩ := h.run hallocate h.memory
  exact ⟨u', es, hrun, s, h'⟩

/-- A region is allocated behind those in use, and gets the next number. -/
theorem refines_allocate {size : Nat} (hroom : Memory.alignUp v.used + size ≤ memorySize) :
    (allocate size).Refines Shows v (some v.regions.size)
      { v with toFlatMemory := v.reserve size, regions := v.regions.push (v.next size) } := by
  refine (refines_allocateRegion hroom).bind ?_
  rintro u ⟨s, ha, hp, hm⟩
  refine ⟨{ u with active := some ⟨s, v.regions.push (v.next size)⟩ }, #[], ?_, s, rfl, hp, hm⟩
  intro journal
  simp only [apply, ha, Array.append_empty]

/-- Without room there is no region to give a number to. -/
theorem refines_allocate_none {size : Nat} (hroom : ¬ Memory.alignUp v.used + size ≤ memorySize) :
    (allocate size).Refines Shows v none v :=
  (refines_allocateRegion_none hroom).bind (Refines.pure none v)

/-- A tick by hand is not seen by the program. -/
theorem refines_tick (hh : host.Obliging) (v : View) :
    (UserProcess.run (Memory.tick host)).Refines Shows v () v := by
  rintro u ⟨s, h⟩
  obtain ⟨u', hrun, h'⟩ := h.run (Memory.yields_tick hh h.memory.sound) (h.memory.ticked host)
  exact ⟨u', _, hrun, _, h'⟩

/-! ## The two ends of a session -/

/-- A session that was just started shows zeros, none of them in use. -/
theorem shows_begun {memory : Memory} (hf : Memory.Fresh host config memory)
    (hc : config.validate = .ok ()) (u : UserProcess) (pager : Pager) :
    (u.begun memory pager).Shows
      ⟨⟨memory.mapping.range, 0, fun _ => 0⟩, #[], pager :: u.pagers⟩ :=
  ⟨memory, rfl, rfl, hf.shows hc⟩

/-- A pager is taken away from a process with sound memory. -/
theorem yields_teardown (hh : host.Hospitable) (pager : Pager) {session : Session}
    (ha : u.active = some session) (hs : session.memory.Sound) :
    (teardown host pager).Yields u session.memory.stats
      { u with active := none, ended := u.ended.or (some session) }
      #[.stopped session.memory.stats] := by
  have hstopped : (if pager.timer.isSome then host.stopTimer.map PagerError.timer else none) = none := by
    rw [hh.stopTimer]
    exact ite_self none
  have hrestored : ((host.restore .alarm).map (PagerError.signal .alarm)).or
      ((host.restore .segmentation).map (PagerError.signal .segmentation)) = none := by
    rw [hh.restore, hh.restore]
    rfl
  refine (yields_apply _ u).bind_silent ?_
  simp only [ha, Option.bind_some, hs.consistent.violation?_eq_none, Option.map_some, Option.getD_some]
  refine (yields_update _ _).bind_silent ((yields_report _ _).bind_last ?_)
  refine (yields_refuse hstopped _).bind_silent ((yields_refuse hrestored _).bind_silent ?_)
  exact Yields.pure _ _

/-- The pager of the session is shut down. -/
theorem exists_shutdown (hh : host.Hospitable) (h : u.Shows v) {pager : Pager}
    (hv : v.pagers = [pager]) : ∃ stats u' es, (shutdown host).Yields u stats u' es := by
  obtain ⟨s, ha, hp, hm⟩ := h
  have hfound : u.pagers[0]? = some pager := by
    rw [hp, hv]
    rfl
  refine ⟨s.stats, { u with
    pagers := u.pagers.eraseIdx 0, active := none, ended := u.ended.or (some ⟨s, v.regions⟩) },
    #[.stopped s.stats], (yields_apply _ u).bind_silent ?_⟩
  dsimp only
  rw [hfound]
  exact yields_teardown hh pager (u := { u with pagers := u.pagers.eraseIdx 0 }) ha hm.sound

end UserProcess

end DemandPaging
