import DemandPaging.Proofs.Memory.Fresh
import DemandPaging.Proofs.Memory.Request
import DemandPaging.UserProcess.Access

/-!
# Sessions of a process

A session lasts from the start of a pager until the pager is shut down or
dropped. `Coherent` says that the slot is filled exactly while the program holds
a pager, and that it holds no second one. Every call keeps this, whichever way
it ends and whatever the host refuses: using the pager starts and ends no
session (`Stays`), a start either begins one with fresh memory or changes
nothing at all, and taking a pager away empties the slot.
-/

namespace DemandPaging

open Step

/-- A host on which a pager can be started. -/
structure Host.Welcoming (host : Host) : Prop extends host.Ready where
  /-- The pages of the host are of the expected size. -/
  pageSize : host.pageSize = DemandPaging.pageSize
  /-- The handlers are installed. -/
  handler : ∀ which, host.handler which = none
  /-- The timer is started. -/
  timer : host.timer = none

/-- The host that refuses nothing is welcoming. -/
theorem Host.welcoming_willing : Host.willing.Welcoming where
  toReady := Host.ready_willing
  pageSize := rfl
  handler _ := rfl
  timer := rfl

namespace UserProcess

variable {host : Host} {config : Config} {u t v : UserProcess} {α β : Type}

/-! ## Calls -/

/-- What a program does with the pager that it holds. A region is named by its number. -/
inductive Use where
  /-- A region is allocated. -/
  | allocate (size : Nat)
  /-- A tick is delivered by hand. -/
  | tick
  /-- The byte at an offset of a region is loaded. -/
  | readByte (n offset : Nat)
  /-- The byte at an offset of a region is replaced. -/
  | writeByte (n offset : Nat) (b : UInt8)
  /-- The word with a number is loaded from a region. -/
  | readWord (n index : Nat)
  /-- The word with a number is replaced in a region. -/
  | writeWord (n index : Nat) (w : Int32)
  deriving DecidableEq, Repr

/-- What a use of the pager hands out. -/
inductive Reply where
  /-- The number of a region, if there was room for it. -/
  | region (n : Option Nat)
  /-- A byte. -/
  | byte (b : UInt8)
  /-- A word. -/
  | word (w : Int32)
  /-- Nothing. -/
  | done
  deriving DecidableEq, Repr

/-- The region with number `n`. -/
def region (n : Nat) : Step UserProcess Region := do
  match ← Step.query (region? n) with
  | some r => return r
  | none => Step.fail .inactive

/-- The step of a use. -/
def Use.step (host : Host) : Use → Step UserProcess Reply
  | .allocate size => do return .region (← UserProcess.allocate size)
  | .tick => do
    run (Memory.tick host)
    return .done
  | .readByte n offset => do return .byte (← UserProcess.readByte host (← region n) offset)
  | .writeByte n offset b => do
    UserProcess.writeByte host (← region n) offset b
    return .done
  | .readWord n index => do return .word (← UserProcess.readWord host (← region n) index)
  | .writeWord n index w => do
    UserProcess.writeWord host (← region n) index w
    return .done

/-- A call that a process makes, or a timer signal that reaches it. -/
inductive Call where
  /-- A pager is started. -/
  | init (config : Config)
  /-- The pager is used. -/
  | use (x : Use)
  /-- The timer signal is raised. -/
  | alarm
  /-- The pager with a number is shut down. -/
  | shutdown (n : Nat)
  /-- The pager with a number is dropped. -/
  | drop (n : Nat)
  deriving DecidableEq, Repr

/-- The step of a call. -/
def Call.step (host : Host) : Call → Step UserProcess Unit
  | .init config => UserProcess.init host config
  | .use x => do let _ ← x.step host
  | .alarm => raise host
  | .shutdown n => do let _ ← UserProcess.shutdown host n
  | .drop n => UserProcess.drop host n

/-- The state that a call leaves, whether its step ran to its end or stopped. -/
def perform (host : Host) (u : UserProcess) (call : Call) : UserProcess :=
  ((call.step host).after ⟨u, #[]⟩).state

/-- The state after calls in a row, each under the conditions that the host sets at that moment. -/
def performAll (u : UserProcess) (calls : List (Host × Call)) : UserProcess :=
  calls.foldl (fun u x => u.perform x.1 x.2) u

/-! ## Steps that start and end no session -/

/-- The program holds the same pagers, and the slot is filled if it was filled before. -/
structure Continues (u t : UserProcess) : Prop where
  /-- The pagers are the same. -/
  pagers : t.pagers = u.pagers
  /-- The slot is filled or empty as before. -/
  active : t.active.isSome = u.active.isSome

theorem Continues.refl (u : UserProcess) : u.Continues u := ⟨rfl, rfl⟩

theorem Continues.trans (h : u.Continues t) (h' : t.Continues v) : u.Continues v :=
  ⟨h'.pagers.trans h.pagers, h'.active.trans h.active⟩

instance : IsPreorder UserProcess Continues where
  refl := Continues.refl
  trans _ _ _ := Continues.trans

/-- The step starts and ends no session, whichever way it ends. -/
def Stays (x : Step UserProcess α) : Prop :=
  ∀ u, x.Ensures u (fun _ => u.Continues) fun _ => u.Continues

/-- A step that leaves the state as it is starts and ends no session. -/
theorem Stays.of_unchanged {x : Step UserProcess α}
    (h : ∀ u, x.Ensures u (fun _ t => t = u) fun _ t => t = u) : Stays x :=
  Keeps.of_unchanged h

/-- What is left of such a step. -/
theorem Stays.continues {x : Step UserProcess α} (hx : Stays x) (u : UserProcess) :
    u.Continues (x.after ⟨u, #[]⟩).state :=
  (hx u).state_after #[]

theorem stays_pure (a : α) : Stays (pure a) := keeps_pure a

theorem Stays.bind {x : Step UserProcess α} {f : α → Step UserProcess β} (hx : Stays x)
    (hf : ∀ a, Stays (f a)) : Stays (x >>= f) :=
  Keeps.bind hx hf

theorem Stays.attempt {x : Step UserProcess α} (hx : Stays x) : Stays (attempt x) :=
  Keeps.attempt hx

theorem stays_query (f : UserProcess → α) : Stays (query f) := keeps_query f

theorem stays_apply {f : UserProcess → α × UserProcess} (hf : ∀ u : UserProcess, u.Continues (f u).2) :
    Stays (apply f) :=
  keeps_apply hf

theorem stays_update {f : UserProcess → UserProcess} (hf : ∀ u : UserProcess, u.Continues (f u)) :
    Stays (update f) :=
  keeps_update hf

theorem stays_ofChecked (r : Except Panic α) : Stays (ofChecked r) := keeps_ofChecked r

/-- What a failure does to the process leaves its state as it is. -/
theorem stays_survive (stopped : Option Stop) : Stays (Memory.survive stopped) := by
  refine .of_unchanged fun u => ?_
  cases stopped with
  | none => exact (Yields.pure () u).ensures rfl
  | some stop =>
    cases stop with
    | error e =>
      refine (yields_report (.fatal e) u).ensures_bind ?_
      exact (yields_report .gaveUp u).ensures_bind (ensures_throw rfl)
    | panic p => exact ensures_throw rfl
    | killed s => exact ensures_throw rfl

/-- A step on the managed memory changes the memory of the active pager and nothing else. -/
theorem ensures_run {x : Step Memory α} {s : Memory} {regions : Array Region}
    {Q : α → Memory → Prop} {R : Stop → Memory → Prop} (hx : x.Ensures s Q R)
    (hu : u.active = some ⟨s, regions⟩) :
    (run x).Ensures u (fun a t => ∃ s', t = { u with active := some ⟨s', regions⟩ } ∧ Q a s')
      fun e t => ∃ s', t = { u with active := some ⟨s', regions⟩ } ∧ R e s' := by
  obtain ⟨active, pagers, ended, alarm, timing⟩ := u
  cases hu
  intro journal
  dsimp only [run]
  cases hrun : x ⟨s, journal⟩ with
  | ok a t => exact ⟨t.state, rfl, hx.of_ok hrun⟩
  | error e t => exact ⟨t.state, rfl, hx.of_error hrun⟩

theorem stays_run (x : Step Memory α) : Stays (run x) := by
  intro u
  cases hu : u.active with
  | none =>
    obtain ⟨active, pagers, ended, alarm, timing⟩ := u
    cases hu
    exact fun _ => .refl _
  | some session =>
    have hx : x.Ensures session.memory (fun _ _ => True) fun _ _ => True := by
      intro journal
      split <;> trivial
    refine (ensures_run hx hu).mono ?_ ?_
    · rintro a t ⟨s', rfl, -⟩
      exact ⟨rfl, by rw [hu]; rfl⟩
    · rintro e t ⟨s', rfl, -⟩
      exact ⟨rfl, by rw [hu]; rfl⟩

theorem stays_onAlarm (host : Host) : Stays (onAlarm host) := by
  refine (stays_query _).bind fun filled => ?_
  split
  · refine (stays_run _).attempt.bind fun result => ?_
    cases result with
    | ok a => exact stays_pure ()
    | error stop => exact stays_survive (some stop)
  · exact stays_pure ()

theorem stays_raise (host : Host) : Stays (raise host) := by
  refine (stays_apply fun _ => ⟨rfl, rfl⟩).bind fun delivered => ?_
  split
  · exact stays_onAlarm host
  · exact stays_pure ()

theorem stays_raiseTimes (host : Host) (n : Nat) : Stays (raiseTimes host n) := by
  induction n with
  | zero => exact stays_pure ()
  | succ n ih => exact (stays_raise host).bind fun _ => ih

theorem stays_bringAbout (host : Host) (p : Page) (a : Access) (denied : Option FaultCode)
    (timing : List Nat) : Stays (bringAbout host p a denied timing) := by
  induction timing generalizing denied with
  | nil =>
    cases denied with
    | none => exact (stays_run _).bind fun _ => stays_pure _
    | some code => exact (stays_run _).bind fun _ => (stays_run _).bind fun _ => stays_pure _
  | cons n timing ih =>
    cases denied with
    | none =>
      refine (stays_raiseTimes host n).bind fun _ => (stays_run _).bind fun denial => ?_
      cases denial with
      | none => exact stays_pure timing
      | some code => exact ih (some code)
    | some code =>
      exact (stays_raiseTimes host n).bind fun _ => (stays_run _).bind fun _ => ih none

theorem stays_access (host : Host) (x : Address) (a : Access)
    (carryOut : Page → Offset → Step Memory α) : Stays (access host x a carryOut) := by
  refine (stays_run _).bind fun place => ?_
  have hreach : Stays (reach host place.1 a) :=
    (stays_apply fun _ => ⟨rfl, rfl⟩).bind fun timing =>
      (stays_bringAbout host place.1 a none timing).bind fun rest => stays_update fun u => ⟨rfl, rfl⟩
  exact hreach.bind fun _ => stays_run _

theorem stays_region (n : Nat) : Stays (region n) := by
  refine (stays_query _).bind fun found => ?_
  cases found with
  | some r => exact stays_pure r
  | none => exact .of_unchanged fun u => ensures_throw rfl

/-- Using the pager starts and ends no session. -/
theorem Use.stays (host : Host) (x : Use) : Stays (x.step host) := by
  cases x with
  | allocate size =>
    refine Stays.bind ?_ fun _ => stays_pure _
    refine (stays_run _).bind fun found => ?_
    cases found with
    | none => exact stays_pure none
    | some r =>
      refine stays_apply fun u => ?_
      obtain ⟨active, pagers, ended, alarm, timing⟩ := u
      cases active with
      | none => exact .refl _
      | some session => exact ⟨rfl, rfl⟩
  | tick => exact (stays_run _).bind fun _ => stays_pure _
  | readByte n offset =>
    refine (stays_region n).bind fun r => Stays.bind ?_ fun _ => stays_pure _
    exact (stays_ofChecked _).bind fun x => stays_access host x .read _
  | writeByte n offset b =>
    refine (stays_region n).bind fun r => Stays.bind ?_ fun _ => stays_pure _
    exact (stays_ofChecked _).bind fun x => stays_access host x .write _
  | readWord n index =>
    refine (stays_region n).bind fun r => Stays.bind ?_ fun _ => stays_pure _
    exact (stays_ofChecked _).bind fun x =>
      (stays_access host x .read _).bind fun _ => stays_pure _
  | writeWord n index w =>
    refine (stays_region n).bind fun r => Stays.bind ?_ fun _ => stays_pure _
    exact (stays_ofChecked _).bind fun x => stays_access host x .write _

/-! ## Ending a session -/

/-- Taking a pager away empties the slot, whatever the host refuses. -/
theorem ensures_teardown (host : Host) (pager : Pager) (u : UserProcess) :
    (teardown host pager).Ensures u (fun _ t => t.active = none ∧ t.pagers = u.pagers)
      fun _ t => t.active = none ∧ t.pagers = u.pagers := by
  have hrest (stopped restored : Option PagerError) (session : Option Session) (stats : Stats)
      {w : UserProcess} (ha : w.active = none) (hp : w.pagers = u.pagers) : Ensures (do
        update fun p => { p with ended := p.ended.or session }
        report (.stopped stats)
        refuse stopped
        refuse restored
        return stats) w (fun _ t => t.active = none ∧ t.pagers = u.pagers)
        fun _ t => t.active = none ∧ t.pagers = u.pagers := by
    refine (yields_update _ w).ensures_bind ((yields_report _ _).ensures_bind ?_)
    refine ensures_refuse_bind (fun _ => ?_) fun _ _ => ⟨ha, hp⟩
    refine ensures_refuse_bind (fun _ => ?_) fun _ _ => ⟨ha, hp⟩
    exact (Yields.pure _ _).ensures ⟨ha, hp⟩
  refine (yields_apply _ u).ensures_bind ?_
  cases hbroken : u.active.bind (·.memory.violation?) with
  | none => exact hrest _ _ _ _ rfl rfl
  | some e => exact (yields_report _ _).ensures_bind (hrest _ _ _ _ rfl rfl)

/-- The slot is filled exactly while the program holds a pager, and it holds one pager at most. -/
def Coherent (u : UserProcess) : Prop := u.pagers.length = u.active.isSome.toNat

theorem Continues.coherent (h : u.Continues t) (hu : u.Coherent) : t.Coherent := by
  rw [Coherent, h.pagers, h.active]
  exact hu

/-- Taking a pager out of the hands of the program: there was one, and now there is none, or there
is no pager with this number. -/
theorem Coherent.eraseIdx (h : u.Coherent) (n : Nat) :
    (u.pagers[n]? = none ∧ u.pagers.eraseIdx n = u.pagers) ∨
      ∃ pager, u.pagers[n]? = some pager ∧ u.pagers.eraseIdx n = [] := by
  have hlength : u.pagers.length ≤ 1 := by
    rw [h]
    exact Bool.toNat_le _
  cases hn : u.pagers[n]? with
  | none =>
    rw [List.getElem?_eq_none_iff] at hn
    exact Or.inl ⟨rfl, List.eraseIdx_of_length_le hn⟩
  | some pager =>
    obtain ⟨hlt, -⟩ := List.getElem?_eq_some_iff.mp hn
    have herased := List.length_eraseIdx_of_lt hlt
    exact Or.inr ⟨pager, rfl, List.eq_nil_of_length_eq_zero (by omega)⟩

/-- The slot is empty and the program holds no pager after the last one was taken away. -/
theorem coherent_teardown (host : Host) (pager : Pager) (hu : u.pagers = []) :
    (teardown host pager).Ensures u (fun _ t => t.Coherent) fun _ t => t.Coherent := by
  have hempty {t : UserProcess} (ht : t.active = none ∧ t.pagers = u.pagers) : t.Coherent := by
    rw [Coherent, ht.1, ht.2, hu]
    rfl
  exact (ensures_teardown host pager u).mono (fun _ _ => hempty) fun _ _ => hempty

/-- Shutting a pager down keeps the slot and the pagers in agreement. -/
theorem Coherent.shutdown (h : u.Coherent) (host : Host) (n : Nat) :
    (UserProcess.shutdown host n).Ensures u (fun _ t => t.Coherent) fun _ t => t.Coherent := by
  refine (yields_apply _ u).ensures_bind ?_
  dsimp only
  obtain ⟨hn, hsame⟩ | ⟨pager, hn, hnil⟩ := h.eraseIdx n
  · rw [hn, hsame]
    exact fun _ => h
  · rw [hn, hnil]
    exact coherent_teardown host pager rfl

/-- Dropping a pager keeps the slot and the pagers in agreement. -/
theorem Coherent.drop (h : u.Coherent) (host : Host) (n : Nat) :
    (UserProcess.drop host n).Ensures u (fun _ t => t.Coherent) fun _ t => t.Coherent := by
  refine (yields_apply _ u).ensures_bind ?_
  dsimp only
  obtain ⟨hn, hsame⟩ | ⟨pager, hn, hnil⟩ := h.eraseIdx n
  · rw [hn, hsame]
    exact (Yields.pure () u).ensures h
  · rw [hn, hnil]
    refine (coherent_teardown host pager rfl).attempt.bind fun result t ht => ?_
    cases result with
    | ok stats => exact (Yields.pure () t).ensures ht
    | error stop =>
      cases stop with
      | error e => exact (yields_report _ t).ensures ht
      | panic p => exact ensures_throw ht
      | killed s => exact ensures_throw ht

/-! ## Starting a session -/

/-- A process whose slot is empty, with a session in it. -/
def begun (u : UserProcess) (memory : Memory) (pager : Pager) : UserProcess :=
  { u with active := some { memory }, pagers := pager :: u.pagers }

/-- A part of a start that touches nothing, in front of which the slot was filled: if it is refused,
the slot is empty again. -/
theorem ensures_orVacate {x : Step UserProcess Unit}
    (hx : x.Ensures u (fun _ t => t = u) fun _ t => t = u) :
    (orVacate x).Ensures u (fun _ t => t = u) fun _ t => t = { u with active := none } := by
  refine hx.attempt.bind fun result t ht => ?_
  cases result with
  | ok a => exact (Yields.pure () t).ensures ht
  | error stop =>
    obtain rfl : t = u := ht
    exact (yields_apply _ t).ensures_bind (ensures_throw rfl)

theorem yields_orVacate {x : Step UserProcess Unit} (hx : x.Yields u () t #[]) :
    (orVacate x).Yields u () t #[] :=
  hx.attempt.bind_silent (Yields.pure () t)

/-- A start either begins a session with fresh memory in an empty slot, or it leaves the process as
it was. -/
theorem ensures_init (host : Host) (config : Config) (u : UserProcess) :
    (init host config).Ensures u
      (fun _ t => u.active = none ∧ ∃ memory pager, Memory.Fresh host config memory ∧
        config.validate = .ok () ∧ t = u.begun memory pager)
      fun _ t => t = u := by
  refine ensures_ofExcept_bind (fun _ hc => ?_) fun _ _ => rfl
  refine ensures_refuse_bind (fun _ => ?_) fun _ _ => rfl
  refine (yields_query _ u).ensures_bind ?_
  refine ensures_refuse_bind (fun hfree => ?_) fun _ _ => rfl
  have hidle : u.active = none := by
    cases ha : u.active with
    | none => rfl
    | some session =>
      rw [ha] at hfree
      cases hfree
  refine (Memory.ensures_new host config u).bind fun memory w hw => ?_
  obtain ⟨rfl, hfresh, hvalid⟩ := hw
  have hundone : w = { { w with active := some { memory } } with active := none } := by
    rw [← hidle]
  refine (yields_update _ w).ensures_bind ?_
  refine Ensures.bind (P := fun _ t => t = { w with active := some { memory } }) ?_ fun _ t ht => ?_
  · refine (ensures_orVacate ?_).mono (fun _ _ => id) fun _ t ht => ht.trans hundone.symm
    refine ensures_refuse_bind (fun _ => ?_) fun _ _ => rfl
    exact ensures_refuse (fun _ => rfl) fun _ _ => rfl
  subst ht
  refine Ensures.bind (P := fun _ t => t = { w with active := some { memory } }) ?_ fun _ t ht => ?_
  · refine (ensures_orVacate ?_).mono (fun _ _ => id) fun _ t ht => ht.trans hundone.symm
    exact ensures_refuse (fun _ => rfl) fun _ _ => rfl
  subst ht
  refine (yields_update _ _).ensures_bind ((yields_report _ _).ensures_bind ?_)
  exact (yields_report _ _).ensures ⟨hidle, memory, _, hfresh, hvalid, rfl⟩

/-- An invalid configuration is refused before anything else, with the failure of its validation. -/
theorem init_of_invalid {e : PagerError} (host : Host) (hc : config.validate = .error e)
    (u : UserProcess) : (init host config).Rejects u (.error e) :=
  (rejects_ofExcept hc u).bind _

/-- A second pager is refused beside an active one. -/
theorem init_of_active (hsize : host.pageSize = pageSize) (hc : config.validate = .ok ())
    (ha : u.active.isSome = true) : (init host config).Rejects u (.error .alreadyInitialized) := by
  refine (yields_ofExcept hc u).rejects_bind ?_
  refine (yields_refuse (if_pos hsize) u).rejects_bind ?_
  refine (yields_query _ u).rejects_bind ?_
  exact (rejects_refuse (if_pos ha) u).bind _

/-- A pager is started in an empty slot. -/
theorem exists_begun (hh : host.Welcoming) (hc : config.validate = .ok ()) (hidle : u.active = none) :
    ∃ memory pager es, (init host config).Yields u () (u.begun memory pager) es ∧
      Memory.Fresh host config memory := by
  obtain ⟨memory, es, hnew, hfresh⟩ := Memory.exists_fresh hh.toReady hc u
  have hhandlers (s : UserProcess) : (install host).Yields s () s #[] := by
    refine (yields_refuse (by rw [hh.handler]; rfl) s).bind_silent ?_
    exact yields_refuse (by rw [hh.handler]; rfl) s
  have htimer (s : UserProcess) : (startTimer host config.timer).Yields s () s #[] := by
    refine yields_refuse ?_ s
    rw [hh.timer]
    exact ite_self none
  refine ⟨memory, ⟨memory.mapping.range, config.budget, memory.policy.kind, config.timer⟩,
    es ++ (#[.started memory.mapping.range] ++
      #[.configured config.budget memory.policy.kind config.timer]), ?_, hfresh⟩
  refine (yields_ofExcept hc u).bind_silent ?_
  refine (yields_refuse (if_pos hh.pageSize) u).bind_silent ?_
  refine (yields_query _ u).bind_silent ?_
  refine (yields_refuse (by rw [hidle]; rfl) u).bind_silent ?_
  refine hnew.bind ?_
  refine (yields_update _ u).bind_silent ?_
  refine (yields_orVacate (hhandlers _)).bind_silent ?_
  refine (yields_orVacate (htimer _)).bind_silent ?_
  refine (yields_update _ _).bind_silent ?_
  exact (yields_report _ _).bind (yields_report _ _)

/-! ## Any calls in a row -/

/-- A start keeps the slot and the pagers in agreement. -/
theorem Coherent.init (h : u.Coherent) (host : Host) (config : Config) :
    (UserProcess.init host config).Ensures u (fun _ t => t.Coherent) fun _ t => t.Coherent := by
  refine (ensures_init host config u).mono ?_ fun _ t ht => ht ▸ h
  rintro _ t ⟨hidle, memory, pager, -, -, rfl⟩
  rw [Coherent, hidle] at h
  rw [Coherent, begun, List.length_cons, h]
  rfl

/-- A use of the pager starts and ends no session. -/
theorem continues_use (host : Host) (u : UserProcess) (x : Use) :
    u.Continues (u.perform host (.use x)) :=
  ((x.stays host).bind fun _ => stays_pure ()).continues u

/-- A call keeps the slot and the pagers in agreement. -/
theorem Coherent.perform (h : u.Coherent) (host : Host) (call : Call) :
    (u.perform host call).Coherent := by
  cases call with
  | init config => exact (h.init host config).state_after #[]
  | use x => exact (continues_use host u x).coherent h
  | alarm => exact ((stays_raise host).continues u).coherent h
  | shutdown n =>
    refine Ensures.state_after (I := Coherent) ?_ #[]
    exact (h.shutdown host n).bind fun _ t ht => (Yields.pure () t).ensures ht
  | drop n => exact (h.drop host n).state_after #[]

/-- Calls in a row keep the slot and the pagers in agreement. -/
theorem Coherent.performAll (h : u.Coherent) (calls : List (Host × Call)) :
    (u.performAll calls).Coherent := by
  induction calls generalizing u with
  | nil => exact h
  | cons x calls ih => exact ih (h.perform x.1 x.2)

/-- Nothing is left of earlier sessions: nothing is counted, allocated or resident, the policy holds
no page, and every byte is loaded as zero. -/
structure StartsBlank (memory : Memory) : Prop where
  /-- The counts are zero. -/
  stats : memory.stats = {}
  /-- No page is resident. -/
  resident : ∀ p, (memory.entry p).resident = false
  /-- The policy holds no page. -/
  tracked : memory.policy.tracked = []
  /-- The first allocation starts at the first byte. -/
  allocated : memory.allocated = 0
  /-- Every byte is zero. -/
  zero : ∀ host : Host, host.Obliging → ∀ p i, ∃ s es,
    ((Request.load p i).perform host).Yields memory (.loaded p i 0) s es

/-- Fresh memory is blank. -/
theorem startsBlank_of_fresh {memory : Memory} (h : Memory.Fresh host config memory)
    (hc : config.validate = .ok ()) : StartsBlank memory where
  stats := by
    rw [Memory.stats, h.counters, h.table]
    rfl
  resident p := by
    rw [h.entry]
    rfl
  tracked := h.tracked
  allocated := h.allocated
  zero host hh p i := by
    obtain ⟨s, es, hload, hfaults, -⟩ := Memory.exists_perform hh (h.sound hc) (.load p i)
    refine ⟨s, es, ?_⟩
    have hzero : s.answer (.load p i) = .loaded p i 0 := by
      rw [Memory.answer, hfaults.contents (h.sound hc), h.contents, PageImage.get_zero]
    rw [hzero] at hload
    exact hload

/-- Whatever calls a process made, and whatever the host refused it, the program holds one pager at
most, and holds one exactly while the slot is filled. A start then fails with the failure of the
validation if the configuration is invalid, and else because of the active pager if there is one. If
it fails, for whichever reason, the process is as it was; in particular an empty slot stays empty,
and a start from a valid configuration succeeds where the host refuses nothing. If it succeeds, the
session starts blank. -/
theorem session_of_calls (hidle : u.active = none) (hnone : u.pagers = [])
    (calls : List (Host × Call)) (ht : u.performAll calls = t) :
    t.pagers.length ≤ 1 ∧ (t.pagers = [] ↔ t.active = none) ∧
    ∀ (host : Host) (config : Config), host.pageSize = pageSize →
      (∀ e, config.validate = .error e → (init host config).Rejects t (.error e)) ∧
      (config.validate = .ok () → t.active.isSome = true →
        (init host config).Rejects t (.error .alreadyInitialized)) ∧
      ((init host config).Ensures t
        (fun _ v => t.active = none ∧ config.validate = .ok () ∧ ∃ memory pager,
          v = { t with active := some { memory }, pagers := [pager] } ∧ StartsBlank memory)
        fun _ v => v = t) ∧
      (host.Welcoming → config.validate = .ok () → t.active = none →
        ∃ v es, (init host config).Yields t () v es) := by
  have hstart : u.Coherent := by
    rw [Coherent, hidle, hnone]
    rfl
  have hcoherent : t.Coherent := ht ▸ hstart.performAll calls
  have hempty : t.pagers = [] ↔ t.active = none := by
    rw [← List.length_eq_zero_iff, hcoherent, Bool.toNat_eq_zero, Option.isSome_eq_false_iff,
      Option.isNone_iff_eq_none]
  have hone : t.pagers.length ≤ 1 := by
    rw [hcoherent]
    exact Bool.toNat_le _
  refine ⟨hone, hempty, fun host config hsize => ⟨?_, ?_, ?_, ?_⟩⟩
  · exact fun e hc => init_of_invalid host hc t
  · exact init_of_active hsize
  · refine (ensures_init host config t).mono ?_ fun _ _ => id
    rintro _ v ⟨hfree, memory, pager, hfresh, hc, rfl⟩
    refine ⟨hfree, hc, memory, pager, ?_, startsBlank_of_fresh hfresh hc⟩
    rw [begun, hempty.mpr hfree]
  · intro hh hc hfree
    obtain ⟨memory, pager, es, hinit, -⟩ := exists_begun hh hc hfree
    exact ⟨_, es, hinit⟩

/-- A session in which a byte was written is active: a second pager is refused. -/
theorem session_of_calls_active : ({} : UserProcess).active = none ∧
    ({} : UserProcess).pagers = [] ∧ ∃ t,
    ({} : UserProcess).performAll [(.willing, .init {}), (.willing, .use (.allocate 8)),
      (.willing, .use (.writeByte 0 3 7))] = t ∧ t.active.isSome = true ∧ t.pagers.length ≤ 1 ∧
      (init .willing {}).Rejects t (.error .alreadyInitialized) ∧
      (init .willing { budget := 0 }).Rejects t (.error (.residentBudget 0)) := by
  obtain ⟨hone, -, hall⟩ := session_of_calls (u := {}) rfl rfl [(.willing, .init {}),
    (.willing, .use (.allocate 8)), (.willing, .use (.writeByte 0 3 7))] rfl
  obtain ⟨memory, pager, es, hinit, -⟩ :=
    exists_begun (u := {}) Host.welcoming_willing (show ({} : Config).validate = .ok () from rfl) rfl
  have hbegun : ({} : UserProcess).perform .willing (.init {}) = ({} : UserProcess).begun memory pager :=
    hinit.state_after #[]
  have hactive : ((({} : UserProcess).performAll [(.willing, .init {}),
      (.willing, .use (.allocate 8)), (.willing, .use (.writeByte 0 3 7))])).active.isSome = true := by
    have huses := (continues_use .willing (({} : UserProcess).begun memory pager) (.allocate 8)).trans
      (continues_use .willing _ (.writeByte 0 3 7))
    simp only [performAll, List.foldl_cons, List.foldl_nil, hbegun]
    exact huses.active
  exact ⟨rfl, rfl, _, rfl, hactive, hone, (hall .willing {} rfl).2.1 rfl hactive,
    (hall .willing { budget := 0 } rfl).1 _ rfl⟩

end UserProcess

end DemandPaging
