import DemandPaging.Proofs.Memory.FlatMemory
import DemandPaging.Proofs.Memory.History

/-!
# Trying an access again

A program tries an access until it is permitted, and every denial raises a fault first. Nothing limits
the number of attempts, and the timer may expire in front of each of them. That they come to an end
follows from the rights that are missing: a fault makes up for one missing step, and a tick can take
away no more than all of them. So the faults are paid for by the steps that were missing at first and
by the ticks.
-/

namespace DemandPaging

open Step

/-- What came of trying an access again and again. -/
structure Retrial where
  /-- How the faults were resolved, in order. -/
  faults : List FaultKind
  /-- Ticks that were delivered in the meantime. -/
  ticks : Nat
  /-- The access was permitted in the end. -/
  permitted : Bool

namespace Memory

variable {host host₀ : Host} {config : Config} {s t : Memory} {p : Page} {a : Access}
  {kind : FaultKind} {raised : Option FaultCode} {schedule : List Turn} {r : Retrial}
  {denial : Memory → Option FaultCode}

/-- Try an access to page `p` until it is permitted, for as long as the schedule lasts. The program
looks whether the access is denied or handles the fault `raised` that the last denial has brought
about, and the timer delivers a tick at any of its turns. A failure ends everything. -/
def retry (host : Host) (p : Page) (denial : Memory → Option FaultCode) :
    Option FaultCode → List Turn → Step Memory Retrial
  | _, [] => return ⟨[], 0, false⟩
  | raised, .timer :: rest => do
    tick host
    let r ← retry host p denial raised rest
    return { r with ticks := r.ticks + 1 }
  | none, .program :: rest => do
    match ← Step.query denial with
    | none => return ⟨[], 0, true⟩
    | some code => retry host p denial (some code) rest
  | some code, .program :: rest => do
    let kind ← handleFault host p code
    let r ← retry host p denial none rest
    return { r with faults := kind :: r.faults }

/-! ## Denials and counts -/

/-- On sound memory, the denial depends on the recorded rights of the page only. -/
def Decides (denial : Memory → Option FaultCode) (p : Page) (a : Access) : Prop :=
  ∀ s : Memory, s.Sound → denial s =
    if a.allowedBy (s.entry p).permission then none else some .accessDenied

/-- The mapping decides by the recorded rights, which are those in force. -/
theorem decides_hostDenial (p : Page) (a : Access) : Decides (hostDenial p a) p a := by
  intro s h
  split
  · rename_i ha
    exact h.hostDenial_eq_none ha
  · rename_i ha
    exact h.hostDenial_eq_some (by simpa using ha)

/-- The page table decides by them too, because a page that is not resident has none. -/
theorem decides_recordedDenial (p : Page) (a : Access) : Decides (recordedDenial p a) p a := by
  intro s h
  cases ha : a.allowedBy (s.entry p).permission with
  | true =>
    have hr := ((h.cell p).of_allowsRead (Access.allowsRead_of_allowedBy ha)).1
    rw [entry_cell] at hr
    simp [recordedDenial, hr, ha]
  | false => simp [recordedDenial, ha]

/-- A fault is counted once, and it counts no tick. -/
theorem Sound.counters_resolved (h : s.Sound) {code : FaultCode}
    (hk : FaultKind.classify p (s.entry p) code = .ok kind) :
    (s.resolved p kind).counters.faults = s.counters.faults + 1 ∧
      (s.resolved p kind).counters.ticks = s.counters.ticks := by
  rcases resident_of_classify hk with ⟨rfl, hr⟩ | ⟨rfl, -, -⟩ | ⟨rfl, -, -⟩
  · rcases h.pageIn_cases hr with hdirect | ⟨victim, rest, hexchange⟩
    · simp [hdirect.counters]
    · simp [hexchange.counters]
  · exact ⟨rfl, rfl⟩
  · exact ⟨rfl, rfl⟩

/-! ## The attempts -/

/-- `t` is what is left of sound memory `s` after access `a` to page `p` was tried along the schedule,
where `raised` is the fault in flight at first and `r` what came of it. -/
structure Retried (p : Page) (a : Access) (s : Memory) (raised : Option FaultCode)
    (schedule : List Turn) (r : Retrial) (t : Memory) : Prop where
  /-- The state is sound. -/
  sound : t.Sound
  /-- No more ticks were delivered than the schedule has. -/
  ticks_le : r.ticks ≤ schedule.count .timer
  /-- The faults are paid for by the missing steps at first and by the ticks. -/
  faults_le : r.faults.length ≤ a.shortfall (s.entry p).permission + a.faultBound * r.ticks
  /-- The program does not go on until the recorded rights allow the access. -/
  allowed : r.permitted = true → a.allowedBy (t.entry p).permission = true
  /-- The program goes on as soon as it had two turns for every fault, and one to look. -/
  permitted : 2 * (a.shortfall (s.entry p).permission + a.faultBound * schedule.count .timer) + 1 ≤
    schedule.count .program + raised.isSome.toNat → r.permitted = true
  /-- Every fault is counted. -/
  faultCount : t.counters.faults = s.counters.faults + r.faults.length
  /-- Every tick is counted. -/
  tickCount : t.counters.ticks = s.counters.ticks + r.ticks

namespace Retried

/-- The schedule is over. -/
theorem nil (h : s.Sound)
    (hraised : raised.isSome = true → a.allowedBy (s.entry p).permission = false) :
    Retried p a s raised [] ⟨[], 0, false⟩ s := by
  constructor
  · exact h
  · simp
  · simp
  · simp
  · -- a denied access lacks a step at least
    intro hturns
    cases hsome : raised.isSome with
    | false => simp [hsome] at hturns
    | true =>
      have hmissing := Access.shortfall_raised (hraised hsome)
      simp only [hsome, List.count_nil, Bool.toNat_true] at hturns
      omega
  · rfl
  · rfl

/-- A tick comes first. -/
theorem timer (h : s.Sound) (hrest : Retried p a (s.ticked host) raised schedule r t) :
    Retried p a s raised (.timer :: schedule) { r with ticks := r.ticks + 1 } t := by
  -- a tick can take away all the steps that were made
  have hmissing := a.shortfall_le_faultBound ((s.ticked host).entry p).permission
  have hcounters : (s.ticked host).counters = s.tickCounted.counters :=
    (h.withdrawn_tickPass host).counters
  obtain ⟨hsound, hticks, hfaults, hallowed, hpermitted, hfaultCount, htickCount⟩ := hrest
  rw [hcounters] at hfaultCount htickCount
  constructor
  · exact hsound
  · simpa using hticks
  · simp only [Nat.mul_succ]
    omega
  · exact hallowed
  · intro hturns
    apply hpermitted
    rw [List.count_cons_self, List.count_cons_of_ne (by decide), Nat.mul_succ] at hturns
    omega
  · exact hfaultCount
  · simp only [tickCounted] at htickCount ⊢
    omega

/-- The program finds the access permitted. -/
theorem allow (h : s.Sound) (ha : a.allowedBy (s.entry p).permission = true) :
    Retried p a s none (.program :: schedule) ⟨[], 0, true⟩ s where
  sound := h
  ticks_le := Nat.zero_le _
  faults_le := Nat.zero_le _
  allowed _ := ha
  permitted _ := rfl
  faultCount := rfl
  tickCount := rfl

/-- The program finds the access denied. -/
theorem deny (hrest : Retried p a s (some .accessDenied) schedule r t) :
    Retried p a s none (.program :: schedule) r t := by
  obtain ⟨hsound, hticks, hfaults, hallowed, hpermitted, hfaultCount, htickCount⟩ := hrest
  refine ⟨hsound, by simpa using hticks, hfaults, hallowed, ?_, hfaultCount, htickCount⟩
  intro hturns
  apply hpermitted
  simpa using hturns

/-- The program handles the fault. -/
theorem fault (h : s.Sound) {code : FaultCode} (ha : a.allowedBy (s.entry p).permission = false)
    (hk : FaultKind.classify p (s.entry p) code = .ok kind)
    (hrest : Retried p a (s.resolved p kind) none schedule r t) :
    Retried p a s (some code) (.program :: schedule) { r with faults := kind :: r.faults } t := by
  have hmissing := Access.shortfall_raised ha
  obtain ⟨hfault, htick⟩ := h.counters_resolved hk
  obtain ⟨hsound, hticks, hfaults, hallowed, hpermitted, hfaultCount, htickCount⟩ := hrest
  rw [h.permission_resolved hk] at hfaults hpermitted
  constructor
  · exact hsound
  · simpa using hticks
  · simp only [List.length_cons]
    omega
  · exact hallowed
  · intro hturns
    apply hpermitted
    rw [List.count_cons_self, List.count_cons_of_ne (by decide), Option.isSome_some,
      Bool.toNat_true] at hturns
    rw [Option.isSome_none, Bool.toNat_false]
    omega
  · simp only [List.length_cons]
    omega
  · exact htickCount.trans (by rw [htick])

end Retried

/-- Every attempt runs to its end. -/
theorem exists_retry (hh : host.Obliging) (hdenial : Decides denial p a) (schedule : List Turn)
    (h : s.Sound) (hraised : ∀ code ∈ raised, code = .accessDenied ∧
      a.allowedBy (s.entry p).permission = false) :
    ∃ r t es, (retry host p denial raised schedule).Yields s r t es ∧
      Retried p a s raised schedule r t := by
  induction schedule generalizing s raised with
  | nil =>
    refine ⟨_, s, #[], Yields.pure _ s, .nil h fun hsome => ?_⟩
    obtain ⟨code, hcode⟩ := Option.isSome_iff_exists.mp hsome
    exact (hraised code hcode).2
  | cons turn rest ih =>
    cases turn with
    | timer =>
      have hstill : ∀ code ∈ raised, code = .accessDenied ∧
          a.allowedBy ((s.ticked host).entry p).permission = false := by
        intro code hcode
        obtain ⟨hcode, ha⟩ := hraised code hcode
        exact ⟨hcode, Access.not_allowedBy_of_withdrawn ha (h.permission_ticked host p)⟩
      obtain ⟨r, t, es, hrun, hretried⟩ := ih (h.ticked host) hstill
      refine ⟨{ r with ticks := r.ticks + 1 }, t, s.tickEvents host ++ es, ?_, hretried.timer h⟩
      cases raised <;> exact (yields_tick hh h).bind (hrun.bind_last (Yields.pure _ t))
    | program =>
      cases raised with
      | none =>
        have hdecides := hdenial s h
        cases ha : a.allowedBy (s.entry p).permission with
        | true =>
          refine ⟨_, s, #[], (yields_query _ s).bind_silent ?_, .allow h ha⟩
          rw [hdecides, ha, if_pos rfl]
          exact Yields.pure _ s
        | false =>
          have hflight : ∀ code ∈ some FaultCode.accessDenied, code = .accessDenied ∧
              a.allowedBy (s.entry p).permission = false := by simp [ha]
          obtain ⟨r, t, es, hrun, hretried⟩ := ih h hflight
          refine ⟨r, t, es, (yields_query _ s).bind_silent ?_, hretried.deny⟩
          rw [hdecides, ha]
          exact hrun
      | some code =>
        obtain ⟨rfl, ha⟩ := hraised code rfl
        obtain ⟨kind, hk⟩ := exists_classify ha
        have hflight : ∀ code ∈ (none : Option FaultCode), code = .accessDenied ∧
            a.allowedBy ((s.resolved p kind).entry p).permission = false := by simp
        obtain ⟨r, t, es, hrun, hretried⟩ := ih (h.resolved hk) hflight
        refine ⟨{ r with faults := kind :: r.faults }, t, s.faultEvents p kind ++ es, ?_,
          hretried.fault h ha hk⟩
        exact (yields_handleFault hh h hk).bind (hrun.bind_last (Yields.pure _ t))

/-- Memory was set up, any incidents happened while the host refused nothing, and from then on an
access to a page is tried along any schedule; whether it is denied may be read off the page table or
off the mapping. Every fault is resolved. With `k` ticks in between, a load raises `k + 1` faults at
most and a store twice as many, and exactly these faults and ticks are counted. When the attempts
end, the page table and the mapping permit the access; and they end, for they do as soon as the program
had two turns for each fault that the ticks of the schedule admit, and one more. -/
theorem retry_of_new {s₀ : Memory} {es : Array Event}
    (hnew : (new host₀ config).Yields () s₀ () es) {incidents : List Incident}
    (hall : ∀ x ∈ incidents, x.Obliged) (hs : s₀.lived incidents = s) (hh : host.Obliging)
    (p : Page) (a : Access) (hdenial : denial = recordedDenial p a ∨ denial = hostDenial p a)
    (schedule : List Turn) :
    ∃ r t es, (retry host p denial none schedule).Yields s r t es ∧
      r.ticks ≤ schedule.count .timer ∧
      r.faults.length ≤ a.faultBound * (r.ticks + 1) ∧
      t.counters.faults = s.counters.faults + r.faults.length ∧
      t.counters.ticks = s.counters.ticks + r.ticks ∧
      (r.permitted = true → recordedDenial p a t = none ∧ hostDenial p a t = none) ∧
      (2 * (a.faultBound * (schedule.count .timer + 1)) < schedule.count .program →
        r.permitted = true) := by
  obtain ⟨hfresh, hvalid⟩ := fresh_of_new hnew
  have h : s.Sound := hs ▸ (hfresh.sound hvalid).lived hall
  have hdecides : Decides denial p a := by
    rcases hdenial with rfl | rfl
    · exact decides_recordedDenial p a
    · exact decides_hostDenial p a
  have hmissing := a.shortfall_le_faultBound (s.entry p).permission
  have hflight : ∀ code ∈ (none : Option FaultCode), code = .accessDenied ∧
      a.allowedBy (s.entry p).permission = false := by simp
  obtain ⟨r, t, es', hrun, hretried⟩ := exists_retry hh hdecides schedule h hflight
  refine ⟨r, t, es', hrun, hretried.ticks_le, ?_, hretried.faultCount, hretried.tickCount, ?_, ?_⟩
  · have hfaults := hretried.faults_le
    rw [Nat.mul_succ]
    omega
  · intro hend
    have ha := hretried.allowed hend
    rw [decides_recordedDenial p a t hretried.sound, decides_hostDenial p a t hretried.sound, ha]
    exact ⟨rfl, rfl⟩
  · intro hturns
    apply hretried.permitted
    rw [Nat.mul_succ] at hturns
    simp only [Option.isSome_none, Bool.toNat_false]
    omega

/-- A store to page 0 is tried where there is room for one page and page 1 is resident, and a tick
comes right after the first fault. -/
theorem retry_of_new_one_place : ∃ s₀ es s r t es',
    (new .willing { budget := 1 }).Yields () s₀ () es ∧
      s₀.lived [.action .willing (.fault 1 .notMapped)] = s ∧
      (retry .willing 0 (hostDenial 0 .write) none
        ([.program, .program, .timer] ++ List.replicate 7 .program)).Yields s r t es' ∧
      r.faults.length ≤ 4 ∧ r.permitted = true ∧ recordedDenial 0 .write t = none := by
  have hvalid : ({ budget := 1 } : Config).validate = .ok () := rfl
  obtain ⟨s₀, es, hnew, -⟩ := exists_fresh Host.ready_willing hvalid ()
  have hh : Host.willing.Obliging := Host.ready_willing.toObliging
  obtain ⟨s, hs⟩ : ∃ s, s₀.lived [.action .willing (.fault 1 .notMapped)] = s := ⟨_, rfl⟩
  obtain ⟨r, t, es', hrun, hticks, hfaults, -, -, hpermitted, hend⟩ :=
    retry_of_new hnew (by simp [Incident.Obliged, hh]) hs hh 0 .write (Or.inr rfl)
      ([.program, .program, .timer] ++ List.replicate 7 .program)
  have hdone := hend (by decide)
  refine ⟨s₀, es, s, r, t, es', hnew, hs, hrun, ?_, hdone, (hpermitted hdone).1⟩
  have hone : r.ticks ≤ 1 := hticks
  simp only [Access.faultBound] at hfaults
  omega

end Memory

end DemandPaging
