import DemandPaging.Proofs.Policy.Replay
import Mathlib.Data.List.MinMax
import Mathlib.Data.List.Nodup

/-!
# The clock as least recently used replacement

`Lru` is replacement by access times: it remembers the whole trace, and where room is needed it
takes the resident page whose last access lies furthest back. A clock remembers only the order of
its queue. If it ticks after every access, just one page is marked when a pass begins; the pass
moves that page behind all others, and the queue stays sorted by last access. Its head is therefore
the page that `Lru` takes.
-/

namespace DemandPaging

/-- Least recently used replacement. -/
structure Lru where
  /-- Pages that may be resident at once. -/
  budget : Nat
  /-- The pages accessed so far, the last one first. -/
  history : List Page := []
  /-- The resident pages. -/
  resident : List Page := []
  /-- Evicted pages, in order. -/
  victims : Array Page := #[]

namespace Lru

/-- The number of accesses since page `p` was accessed last. -/
def age (l : Lru) (p : Page) : Nat := l.history.idxOf p

/-- Evict the resident page of the greatest age, if there is no room. -/
def makeRoom (l : Lru) : Lru :=
  if l.resident.length = l.budget then
    match l.resident.argmax l.age with
    | some victim =>
      { l with resident := l.resident.erase victim, victims := l.victims.push victim }
    | none => l
  else l

/-- Access a page. -/
def access (l : Lru) (p : Page) : Lru :=
  let l :=
    if l.resident.contains p then l else { l.makeRoom with resident := p :: l.makeRoom.resident }
  { l with history := p :: l.history }

/-- Access the pages of a trace in order, with no page resident at first. -/
def run (budget : Nat) (trace : List Page) : Lru := trace.foldl access { budget }

/-- Page `p` was accessed last before page `q` was. -/
def Before (l : Lru) (p q : Page) : Prop := l.age q < l.age p

variable {l : Lru} {p q : Page} {queue : List Page}

/-- Any other page is one access older after an access. -/
theorem age_of_ne {l' : Lru} (h : l'.history = p :: l.history) (hq : q ≠ p) :
    l'.age q = l.age q + 1 := by
  rw [age, h, List.idxOf_cons_ne _ hq.symm]
  rfl

/-- The page that is accessed goes behind the others. -/
theorem pairwise_before_moved {l' : Lru} (h : l'.history = p :: l.history)
    (hnodup : queue.Nodup) (hsorted : queue.Pairwise l.Before) :
    (queue.erase p ++ [p]).Pairwise l'.Before := by
  have hne : ∀ q ∈ queue.erase p, q ≠ p := fun q hq => (hnodup.mem_erase_iff.mp hq).1
  rw [List.pairwise_append]
  refine ⟨?_, List.pairwise_singleton .., ?_⟩
  · refine (hsorted.sublist List.erase_sublist).imp_of_mem fun ha hb hab => ?_
    rw [Before, age_of_ne h (hne _ ha), age_of_ne h (hne _ hb)]
    exact Nat.succ_lt_succ hab
  · intro q hq p' hp
    obtain rfl := List.mem_singleton.mp hp
    have hzero : l'.age p' = 0 := by rw [age, h, List.idxOf_cons_self]
    rw [Before, hzero, age_of_ne h (hne q hq)]
    exact Nat.succ_pos _

/-- The first page of a queue sorted by last access is the one that is evicted. -/
theorem argmax_age_of_pairwise {rest : List Page} (hperm : (p :: rest).Perm l.resident)
    (hsorted : (p :: rest).Pairwise l.Before) : l.resident.argmax l.age = some p := by
  have hbefore : ∀ q ∈ rest, l.age q < l.age p := (List.pairwise_cons.mp hsorted).1
  have hcases : ∀ q ∈ l.resident, q = p ∨ l.age q < l.age p := by
    intro q hq
    rcases List.mem_cons.mp (hperm.mem_iff.mpr hq) with rfl | hrest
    · exact Or.inl rfl
    · exact Or.inr (hbefore q hrest)
  rw [List.argmax_eq_some_iff]
  refine ⟨hperm.mem_iff.mp (List.mem_cons_self ..), ?_, ?_⟩
  · intro q hq
    rcases hcases q hq with rfl | hlt
    · exact Nat.le_refl _
    · exact Nat.le_of_lt hlt
  · intro q hq hle
    rcases hcases q hq with rfl | hlt
    · exact Nat.le_refl _
    · exact absurd hle (Nat.not_le.mpr hlt)

end Lru

namespace Replay

variable {r : Replay} {l : Lru} {p : Page} {queue : List Page}

/-- A pass that finds no page used changes nothing. -/
theorem sweep_of_unused (queue : List Page) : sweep tracker queue [] = ⟨queue, [], [], none⟩ := by
  induction queue with
  | nil => rfl
  | cons q queue ih =>
    have hunused : tracker.accessed [] q = false := rfl
    simp only [sweep, hunused, ih, Bool.false_eq_true, ite_false]

/-- A pass that finds one page used takes it out of the queue. -/
theorem sweep_of_used (hp : p ∈ queue) : sweep tracker queue [p] = ⟨queue.erase p, [p], [], none⟩ := by
  induction queue with
  | nil => cases hp
  | cons q queue ih =>
    by_cases hq : q = p
    · subst hq
      have hused : tracker.accessed [q] q = true := by
        rw [tracker, List.contains_iff_mem]
        exact List.mem_singleton_self q
      have hrevoke : tracker.revoke [q] q = [] := by
        simp only [tracker, List.filter_cons, bne_self_eq_false, Bool.false_eq_true, ite_false,
          List.filter_nil]
      have hfree : tracker.refusal [q] q = none := rfl
      simp only [sweep, hused, hfree, hrevoke, sweep_of_unused, ite_true, List.erase_cons_head]
    · have hunused : tracker.accessed [p] q = false := by
        rw [tracker, ← Bool.not_eq_true, List.contains_iff_mem, List.mem_singleton]
        exact hq
      have hrest := ih ((List.mem_cons.mp hp).resolve_left (Ne.symm hq))
      have herase : (q :: queue).erase p = q :: queue.erase p :=
        List.erase_cons_tail fun he => hq (beq_iff_eq.mp he)
      simp only [sweep, hunused, hrest, herase, Bool.false_eq_true, ite_false]

/-- A tick after one access to a held page moves that page to the back. -/
theorem tick_touch (hpolicy : r.policy = .clock queue) (hunused : r.accessed = []) (hp : p ∈ queue) :
    (r.touch p).tick = { r with
      policy := .clock (queue.erase p ++ [p])
      accessed := []
      revocations := r.revocations + 1 } := by
  have htouch : r.touch p = { r with accessed := [p] } := by
    rw [touch, hunused]
    rfl
  simp only [tick, Policy.tick, htouch, hpolicy, sweep_of_used hp]
  rfl

/-- A tick after a load and an access to the loaded page leaves that page at the back. -/
theorem tick_touch_takeIn (hpolicy : r.policy = .clock queue) (hunused : r.accessed = [])
    (hp : p ∉ queue) (loads : Nat) :
    ({ r with
        policy := r.policy.takeIn p
        resident := p :: r.resident
        loads }.touch p).tick = { r with
      policy := .clock (queue ++ [p])
      resident := p :: r.resident
      accessed := []
      loads
      revocations := r.revocations + 1 } := by
  have hpolicy' : r.policy.takeIn p = .clock (queue ++ [p]) := by
    rw [hpolicy]
    rfl
  have hmem : p ∈ queue ++ [p] := List.mem_append_right _ (List.mem_singleton_self p)
  have hlast : (queue ++ [p]).erase p = queue := by
    rw [List.erase_append_right _ hp, List.erase_cons_head, List.append_nil]
  have htick := tick_touch (r := { r with
    policy := .clock (queue ++ [p]), resident := p :: r.resident, loads }) rfl hunused hmem
  rw [hpolicy', htick, hlast]

/-- Making room loads no page. -/
theorem mem_resident_of_makeRoom (h : p ∈ r.makeRoom.resident) : p ∈ r.resident := by
  unfold makeRoom at h
  split at h
  · split at h
    · exact List.mem_of_mem_filter h
    · exact h
  · exact h

/-- A clock replay between two accesses, and least recently used replacement at the same place of
the trace. -/
structure Ranks (r : Replay) (l : Lru) : Prop where
  /-- The policy is a clock. -/
  policy : r.policy = .clock r.policy.tracked
  /-- The budgets agree. -/
  budget : r.budget = l.budget
  /-- The clock holds the resident pages of the replay. -/
  held : r.policy.tracked.Perm r.resident
  /-- The same pages are resident. -/
  resident : r.policy.tracked.Perm l.resident
  /-- No page is marked as used. -/
  accessed : r.accessed = []
  /-- The queue is sorted by last access. -/
  sorted : r.policy.tracked.Pairwise l.Before
  /-- The same pages left, in the same order. -/
  victims : r.victims = l.victims

namespace Ranks

theorem start (budget : Nat) : Ranks { policy := .clock [], budget } { budget } where
  policy := rfl
  budget := rfl
  held := .refl _
  resident := .refl _
  accessed := rfl
  sorted := .nil
  victims := rfl

theorem nodup (h : Ranks r l) : r.policy.tracked.Nodup :=
  h.sorted.imp fun hlt he => absurd hlt (by rw [he]; exact Nat.lt_irrefl _)

/-- Both sides evict the same page or none. -/
theorem makeRoom (h : Ranks r l) : Ranks r.makeRoom l.makeRoom := by
  have hlength : r.resident.length = l.resident.length :=
    h.held.length_eq.symm.trans h.resident.length_eq
  by_cases hfull : r.resident.length = r.budget
  · have hfull' : l.resident.length = l.budget := by rw [← hlength, hfull, h.budget]
    cases hqueue : r.policy.tracked with
    | nil =>
      -- a budget of no page: there is nobody to evict on either side
      have hpolicy : r.policy = .clock [] := hqueue ▸ h.policy
      have hnil : l.resident = [] := (hqueue ▸ h.resident).nil_eq.symm
      have hr : r.makeRoom = r := by
        rw [Replay.makeRoom, if_pos hfull, hpolicy]
        simp only [Policy.evict, ← hpolicy]
      have hl : l.makeRoom = l := by
        rw [Lru.makeRoom, if_pos hfull', hnil]
        rfl
      rw [hr, hl]
      exact h
    | cons victim rest =>
      have hpolicy : r.policy = .clock (victim :: rest) := hqueue ▸ h.policy
      have hsorted : (victim :: rest).Pairwise l.Before := hqueue ▸ h.sorted
      have hheld : (victim :: rest).Perm r.resident := hqueue ▸ h.held
      have hresident : (victim :: rest).Perm l.resident := hqueue ▸ h.resident
      have hnodup : r.resident.Nodup := h.held.nodup_iff.mp h.nodup
      have hr : r.makeRoom = { r with
          policy := .clock rest
          resident := r.resident.erase victim
          accessed := []
          victims := r.victims.push victim } := by
        rw [Replay.makeRoom, if_pos hfull, hpolicy, h.accessed, hnodup.erase_eq_filter]
        rfl
      have hl : l.makeRoom = { l with
          resident := l.resident.erase victim
          victims := l.victims.push victim } := by
        rw [Lru.makeRoom, if_pos hfull', Lru.argmax_age_of_pairwise hresident hsorted]
      rw [hr, hl]
      have herase : (victim :: rest).erase victim = rest := List.erase_cons_head ..
      refine ⟨rfl, h.budget, ?_, ?_, rfl, hsorted.tail, ?_⟩
      · exact herase ▸ hheld.erase victim
      · exact herase ▸ hresident.erase victim
      · change r.victims.push victim = l.victims.push victim
        rw [h.victims]
  · have hfull' : ¬ l.resident.length = l.budget := by rwa [← hlength, ← h.budget]
    rw [Replay.makeRoom, if_neg hfull, Lru.makeRoom, if_neg hfull']
    exact h

/-- A resident page is accessed, and the clock ticks. -/
theorem hit (h : Ranks r l) (hp : p ∈ r.policy.tracked) :
    Ranks (r.touch p).tick { l with history := p :: l.history } := by
  have hmoved : (r.policy.tracked.erase p ++ [p]).Perm r.policy.tracked :=
    (List.perm_append_singleton p _).trans (List.perm_cons_erase hp).symm
  rw [tick_touch h.policy h.accessed hp]
  exact ⟨rfl, h.budget, hmoved.trans h.held, hmoved.trans h.resident, rfl,
    Lru.pairwise_before_moved rfl h.nodup h.sorted, h.victims⟩

/-- A page that is not resident is loaded, where there is room, and accessed, and the clock ticks.
-/
theorem miss (h : Ranks r l) (hp : p ∉ r.policy.tracked) (loads : Nat) :
    Ranks ({ r with
        policy := r.policy.takeIn p
        resident := p :: r.resident
        loads }.touch p).tick
      { l with resident := p :: l.resident, history := p :: l.history } := by
  have hadded : ∀ pages : List Page, r.policy.tracked.Perm pages →
      (r.policy.tracked ++ [p]).Perm (p :: pages) := fun pages hpages =>
    (List.perm_append_singleton p _).trans (hpages.cons p)
  have hsorted : (r.policy.tracked.erase p ++ [p]).Pairwise
      (Lru.Before { l with resident := p :: l.resident, history := p :: l.history }) :=
    Lru.pairwise_before_moved rfl h.nodup h.sorted
  rw [List.erase_of_not_mem hp] at hsorted
  rw [tick_touch_takeIn h.policy h.accessed hp]
  exact ⟨rfl, h.budget, hadded _ h.held, hadded _ h.resident, rfl, hsorted, h.victims⟩

/-- An access with the tick after it keeps the two at the same place. -/
theorem access (h : Ranks r l) (p : Page) :
    ∃ r', r.access p = .ok r' ∧ Ranks r'.tick (l.access p) := by
  have hiff : p ∈ r.resident ↔ l.resident.contains p = true := by
    rw [List.contains_iff_mem, ← h.held.mem_iff, h.resident.mem_iff]
  by_cases hp : p ∈ r.resident
  · refine ⟨r.touch p, access_of_mem hp, ?_⟩
    rw [Lru.access, if_pos (hiff.mp hp)]
    exact h.hit (h.held.mem_iff.mpr hp)
  · have hroom := h.makeRoom
    have hfree : p ∉ r.makeRoom.policy.tracked := fun hm =>
      hp (mem_resident_of_makeRoom (hroom.held.mem_iff.mp hm))
    refine ⟨_, access_of_not_mem hp hfree, ?_⟩
    have hmiss := hroom.miss hfree (r.makeRoom.loads + 1)
    rw [Lru.access, if_neg fun hl => hp (hiff.mpr hl)]
    exact hmiss

/-- The rest of a trace keeps them there. `done` accesses came before it. -/
theorem run (h : Ranks r l) (trace : List Page) (done : Nat) :
    ∃ r', Replay.run 1 done trace r = .ok r' ∧ Ranks r' (trace.foldl Lru.access l) := by
  induction trace generalizing r l done with
  | nil => exact ⟨r, rfl, h⟩
  | cons p trace ih =>
    obtain ⟨r', haccess, hnext⟩ := h.access p
    obtain ⟨r'', hrun, hend⟩ := ih hnext (done + 1)
    have hperiod : (1 : Nat) ≠ 0 ∧ (done + 1) % 1 = 0 := ⟨Nat.one_ne_zero, Nat.mod_one _⟩
    refine ⟨r'', ?_, hend⟩
    rw [Replay.run, haccess]
    simp only [bind, Except.bind, if_pos hperiod]
    exact hrun

end Ranks

/-- Every trace can be replayed against a clock that holds no page at first and ticks after every
access. The clock evicts the pages that least recently used replacement evicts, in the same order.
After the trace, and so after each of its beginnings, the same pages are resident, and the clock
holds them in the order of their last accesses, the oldest first. -/
theorem run_clock_eq_lru (budget : Nat) (trace : List Page) :
    ∃ r, run 1 0 trace { policy := .clock [], budget } = .ok r ∧
      r.victims = (Lru.run budget trace).victims ∧
      r.policy.tracked.Perm r.resident ∧
      r.policy.tracked.Perm (Lru.run budget trace).resident ∧
      r.policy.tracked.Pairwise (Lru.run budget trace).Before := by
  obtain ⟨r, hrun, h⟩ := (Ranks.start budget).run trace 0
  exact ⟨r, hrun, h.victims, h.held, h.resident, h.sorted⟩

/-- Page 0 is used again before room is needed, so page 1 leaves. -/
example : (Lru.run 2 [0, 1, 0, 2, 1]).victims = #[1, 0] := rfl

end Replay

end DemandPaging
