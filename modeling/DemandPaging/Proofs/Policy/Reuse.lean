import DemandPaging.Proofs.Policy.Recency
import Mathlib.Data.Finset.Card
import Mathlib.Data.List.DropRight

/-!
# Hits of the clock by reuse distance

The pages of a trace form a stack in which the page accessed last lies on top. The pages above a page
are those that were accessed since it was, so its depth is the number of other pages accessed since.
A clock that ticks after every access holds the topmost pages of the stack, as many as it has room
for, with the lowest of them at the head of its queue. So an access is a load exactly if its page
lies too deep, and the stack, which does not depend on the room, settles this for every size at once.
-/

namespace DemandPaging

/-! ## The stack of a trace -/

namespace Recency

/-- The page that is accessed comes to lie on top. -/
def renew (stack : List Page) (p : Page) : List Page := p :: stack.filter (· ≠ p)

/-- The pages of a trace, the one accessed last on top. -/
def stack (trace : List Page) : List Page := trace.foldl renew []

/-- The topmost `room` pages of the stack. -/
def top (room : Nat) (trace : List Page) : List Page := (stack trace).take room

/-- The other pages that were accessed since page `p` was accessed last. -/
def since (p : Page) (trace : List Page) : Finset Page := (trace.rtakeWhile (· ≠ p)).toFinset

/-- Page `p` was not accessed before, or at least `room` other pages were accessed since. -/
def Distant (room : Nat) (p : Page) (trace : List Page) : Prop :=
  p ∉ trace ∨ room ≤ (since p trace).card

instance (room : Nat) (p : Page) (trace : List Page) : Decidable (Distant room p trace) :=
  inferInstanceAs (Decidable (_ ∨ _))

variable {l trace before between : List Page} {p q : Page} {n room : Nat}

theorem stack_concat (trace : List Page) (p : Page) :
    stack (trace ++ [p]) = renew (stack trace) p := by
  simp [stack]

theorem nodup_renew (h : l.Nodup) (p : Page) : (renew l p).Nodup :=
  List.nodup_cons.mpr ⟨by simp, h.filter _⟩

theorem mem_renew : q ∈ renew l p ↔ q = p ∨ q ∈ l := by
  by_cases hq : q = p <;> simp [renew, hq]

theorem nodup_stack (trace : List Page) : (stack trace).Nodup := by
  induction trace using List.reverseRecOn with
  | nil => exact List.nodup_nil
  | append_singleton trace p ih =>
    rw [stack_concat]
    exact nodup_renew ih p

theorem mem_stack : q ∈ stack trace ↔ q ∈ trace := by
  induction trace using List.reverseRecOn with
  | nil => rfl
  | append_singleton trace p ih => rw [stack_concat, mem_renew, ih, List.mem_append,
      List.mem_singleton, or_comm]

/-- What stands in front of page `p` without page `q`. -/
theorem takeWhile_filter_of_ne (l : List Page) (h : q ≠ p) :
    (l.filter (· ≠ q)).takeWhile (· ≠ p) = (l.takeWhile (· ≠ p)).filter (· ≠ q) := by
  induction l with
  | nil => rfl
  | cons a l ih =>
    by_cases haq : a = q
    · subst haq
      simpa [h] using ih
    · by_cases hap : a = p <;> simp_all

@[simp] theorem since_concat_self (trace : List Page) (p : Page) : since p (trace ++ [p]) = ∅ := by
  simp [since]

theorem since_concat_of_ne (trace : List Page) (h : q ≠ p) :
    since p (trace ++ [q]) = insert q (since p trace) := by
  ext
  simp [since, h]

/-- No other pages than those of a stretch are accessed in it. -/
theorem since_subset (before between : List Page) (p : Page) :
    since p (before ++ p :: between) ⊆ between.toFinset.erase p := by
  induction between using List.reverseRecOn with
  | nil => simp
  | append_singleton between q ih =>
    rw [← List.cons_append, ← List.append_assoc]
    by_cases hq : q = p
    · rw [hq, since_concat_self]
      exact Finset.empty_subset _
    · intro x hx
      rw [since_concat_of_ne _ hq, Finset.mem_insert] at hx
      rcases hx with rfl | hx
      · simp [hq]
      · have hbetween := ih hx
        simp_all

/-- The pages above a page are those accessed since. -/
theorem mem_above_iff : q ∈ (stack trace).takeWhile (· ≠ p) ↔ q ∈ since p trace := by
  induction trace using List.reverseRecOn with
  | nil => simp [stack, since]
  | append_singleton trace a ih =>
    rw [stack_concat, renew]
    by_cases ha : a = p
    · simp [ha]
    · rw [since_concat_of_ne trace ha, Finset.mem_insert, ← ih,
        List.takeWhile_cons_of_pos (by simpa using ha), takeWhile_filter_of_ne _ ha, List.mem_cons,
        List.mem_filter]
      by_cases hq : q = a <;> simp [hq]

/-- The depth of a page is the number of other pages accessed since. -/
theorem length_above (p : Page) (trace : List Page) :
    ((stack trace).takeWhile (· ≠ p)).length = (since p trace).card := by
  have hnodup : ((stack trace).takeWhile (· ≠ p)).Nodup :=
    (nodup_stack trace).sublist (List.takeWhile_sublist _)
  rw [← List.toFinset_card_of_nodup hnodup]
  congr 1
  ext q
  rw [List.mem_toFinset, mem_above_iff]

/-- A page is among the first `n` of a list if fewer than `n` stand in front of it. -/
theorem mem_take_iff : p ∈ l.take n ↔ p ∈ l ∧ (l.takeWhile (· ≠ p)).length < n := by
  induction l generalizing n with
  | nil => simp
  | cons a l ih =>
    cases n with
    | zero => simp
    | succ n =>
      by_cases ha : a = p
      · simp [ha]
      · simp [ih, ha, Ne.symm ha]

/-- A page is one of the topmost unless it is distant. -/
theorem mem_top : p ∈ top room trace ↔ ¬ Distant room p trace := by
  rw [top, mem_take_iff, length_above, mem_stack, Distant, not_or, not_not, not_le]

theorem nodup_top (room : Nat) (trace : List Page) : (top room trace).Nodup :=
  (nodup_stack trace).sublist (List.take_sublist ..)

/-- A page among the first ones leaves a gap, which the next page behind them fills. -/
theorem take_filter_of_mem (hnodup : l.Nodup) (h : p ∈ l.take (n + 1)) :
    (l.filter (· ≠ p)).take n = (l.take (n + 1)).filter (· ≠ p) := by
  induction l generalizing n with
  | nil => simp
  | cons a l ih =>
    obtain ⟨ha, hl⟩ := List.nodup_cons.mp hnodup
    rw [List.take_succ_cons, List.mem_cons] at h
    by_cases hp : a = p
    · subst hp
      have hself (k : List Page) (hk : k ⊆ l) : k.filter (· ≠ a) = k :=
        List.filter_eq_self.mpr fun q hq => by
          have hne : q ≠ a := fun he => ha (he ▸ hk hq)
          simpa using hne
      rw [List.take_succ_cons, List.filter_cons_of_neg (by simp), List.filter_cons_of_neg (by simp),
        hself l (List.Subset.refl l), hself (l.take n) (List.take_subset n l)]
    · cases n with
      | zero => simp [Ne.symm hp] at h
      | succ n =>
        have hrest := ih hl (h.resolve_left (Ne.symm hp))
        simpa [hp] using hrest

theorem take_filter_of_not_mem (h : p ∉ l.take n) : (l.filter (· ≠ p)).take n = l.take n := by
  induction l generalizing n with
  | nil => simp
  | cons a l ih =>
    cases n with
    | zero => rfl
    | succ n =>
      rw [List.take_succ_cons, List.mem_cons, not_or] at h
      have hp : a ≠ p := Ne.symm h.1
      simpa [hp] using ih h.2

/-- From the bottom, the page that is accessed moves behind the others. -/
theorem reverse_renew (hnodup : l.Nodup) (p : Page) :
    (renew l p).reverse = l.reverse.erase p ++ [p] := by
  rw [renew, List.reverse_cons, (List.nodup_reverse.mpr hnodup).erase_eq_filter, List.filter_reverse]
  congr 3
  ext q
  by_cases hq : q = p <;> simp [hq]

/-- A page that is renewed joins no others. -/
theorem renew_perm (hnodup : l.Nodup) (h : p ∈ l) : (renew l p).Perm l := by
  have hmoved : (renew l p).reverse.Perm l.reverse := by
    rw [reverse_renew hnodup]
    exact (List.perm_append_singleton p _).trans (List.perm_cons_erase (by simpa using h)).symm
  simpa using hmoved

/-- One of the topmost pages is renewed among them. -/
theorem top_concat_of_mem (h : p ∈ top (n + 1) trace) :
    top (n + 1) (trace ++ [p]) = renew (top (n + 1) trace) p := by
  rw [top, stack_concat, renew, List.take_succ_cons, take_filter_of_mem (nodup_stack trace) h, top,
    renew]

/-- Another page comes to lie on top of them, and the lowest of them gets out of reach. -/
theorem top_concat_of_not_mem (h : p ∉ top (n + 1) trace) :
    top (n + 1) (trace ++ [p]) = p :: top n trace := by
  have hn : p ∉ (stack trace).take n := fun hm => h (List.take_subset_take_left _ (Nat.le_succ n) hm)
  rw [top, stack_concat, renew, List.take_succ_cons, take_filter_of_not_mem hn, top]

/-- More room brings more pages into reach. -/
theorem Distant.anti {larger : Nat} (h : Distant larger p trace) (hle : room ≤ larger) :
    Distant room p trace :=
  h.imp_right hle.trans

/-- A page stays within reach over a stretch with few other pages. -/
theorem not_distant_of_between (before : List Page) (h : (between.toFinset.erase p).card < room) :
    ¬ Distant room p (before ++ p :: between) := by
  have hcard := Finset.card_le_card (since_subset before between p)
  rintro (hp | hroom)
  · simp at hp
  · omega

end Recency

/-! ## The clock -/

namespace Replay

/-- A replay against a clock that has room for `room` pages and holds none. -/
def cold (room : Nat) : Replay := { policy := .clock [], budget := room }

variable {r r' : Replay} {trace before between : List Page} {p q : Page} {n room larger : Nat}

/-- After the first part of a trace, the replay goes on with the second one. -/
theorem run_append (done : Nat) (front back : List Page) (r : Replay) :
    run 1 done (front ++ back) r = run 1 done front r >>= run 1 (done + front.length) back := by
  induction front generalizing done r with
  | nil => rfl
  | cons p front ih => simp only [List.cons_append, run, ih, bind_assoc, List.length_cons,
      Nat.add_assoc, Nat.add_comm 1]

/-- A page is accessed, the clock ticks, and the replay goes on. -/
theorem run_cons_of_access (done : Nat) (trace : List Page) (h : r.access p = .ok r') :
    run 1 done (p :: trace) r = run 1 (done + 1) trace r'.tick := by
  simp [run, h, bind, Except.bind, Nat.mod_one]

/-- The last page of a trace is accessed, and the clock ticks. -/
theorem run_concat_of_access {start : Replay} (hrun : run 1 0 trace start = .ok r)
    (h : r.access p = .ok r') : run 1 0 (trace ++ [p]) start = .ok r'.tick := by
  rw [run_append, hrun]
  exact run_cons_of_access _ [] h

/-- A clock between two accesses, after it ticked for the last of `trace`: it holds the topmost
pages of the stack. -/
structure Stacked (room : Nat) (r : Replay) (trace : List Page) : Prop where
  /-- There is room for so many pages. -/
  budget : r.budget = room
  /-- The queue is the top of the stack, the lowest page at its head. -/
  policy : r.policy = .clock (Recency.top room trace).reverse
  /-- The clock holds the resident pages. -/
  held : (Recency.top room trace).Perm r.resident
  /-- No page is marked as used. -/
  accessed : r.accessed = []

namespace Stacked

theorem start (room : Nat) : Stacked room (cold room) [] where
  budget := rfl
  policy := by simp [cold, Recency.top, Recency.stack]
  held := by simp [cold, Recency.top, Recency.stack]
  accessed := rfl

/-- The pages out of reach are the ones that are not resident. -/
theorem not_mem_resident_iff (h : Stacked room r trace) :
    p ∉ r.resident ↔ Recency.Distant room p trace := by
  rw [← h.held.mem_iff, Recency.mem_top, not_not]

/-- If the clock is full, the lowest page makes room. -/
theorem makeRoom (h : Stacked (n + 1) r trace) : ∃ left : Array Page,
    r.makeRoom = { r with
      policy := .clock (Recency.top n trace).reverse
      resident := r.makeRoom.resident
      victims := r.victims ++ left } ∧
    (Recency.top n trace).Perm r.makeRoom.resident ∧
    ∀ q ∈ left, q ∈ r.resident ∧ q ∉ Recency.top n trace := by
  have htop : Recency.top (n + 1) trace =
      Recency.top n trace ++ (Recency.stack trace)[n]?.toList := List.take_add_one
  have hnodup := Recency.nodup_top (n + 1) trace
  have hpolicy := h.policy
  have hheld := h.held
  have hlength : r.resident.length = min (n + 1) (Recency.stack trace).length := by
    rw [← hheld.length_eq, Recency.top, List.length_take]
  rw [htop] at hnodup hpolicy hheld
  cases hlowest : (Recency.stack trace)[n]? with
  | none =>
    have hshort : (Recency.stack trace).length ≤ n := List.getElem?_eq_none_iff.mp hlowest
    have hmake : r.makeRoom = r := by
      rw [Replay.makeRoom, if_neg (by rw [hlength, h.budget]; omega)]
    rw [hlowest, Option.toList_none, List.append_nil] at hpolicy hheld
    refine ⟨#[], ?_, ?_, by simp⟩
    · rw [hmake, ← hpolicy, Array.append_empty]
    · rw [hmake]
      exact hheld
  | some lowest =>
    have hlong : n < (Recency.stack trace).length := (List.getElem?_eq_some_iff.mp hlowest).1
    rw [hlowest, Option.toList_some] at hnodup hpolicy hheld
    have hfresh : lowest ∉ Recency.top n trace := by
      simpa using List.disjoint_of_nodup_append hnodup
    have hmake : r.makeRoom = { r with
        policy := .clock (Recency.top n trace).reverse
        resident := r.resident.erase lowest
        victims := r.victims.push lowest } := by
      rw [List.reverse_append, List.reverse_singleton, List.singleton_append] at hpolicy
      rw [Replay.makeRoom, if_pos (by rw [hlength, h.budget]; omega), hpolicy,
        (hheld.nodup_iff.mp hnodup).erase_eq_filter]
      simp [Policy.evict, h.accessed]
    refine ⟨#[lowest], ?_, ?_, ?_⟩
    · rw [hmake, Array.push_eq_append]
    · rw [hmake]
      have herase := hheld.erase lowest
      rwa [List.erase_append_right _ hfresh, List.erase_cons_head, List.append_nil] at herase
    · intro q hq
      rw [Array.mem_singleton] at hq
      subst hq
      exact ⟨hheld.mem_iff.mp (by simp), hfresh⟩

/-- A resident page is accessed, and the clock ticks. -/
theorem hit (h : Stacked (n + 1) r trace) (hp : p ∈ r.resident) :
    Stacked (n + 1) (r.touch p).tick (trace ++ [p]) := by
  have hmem : p ∈ Recency.top (n + 1) trace := h.held.mem_iff.mpr hp
  have hnodup := Recency.nodup_top (n + 1) trace
  rw [tick_touch h.policy h.accessed (by simpa using hmem)]
  constructor
  · exact h.budget
  · rw [Recency.top_concat_of_mem hmem, Recency.reverse_renew hnodup]
  · rw [Recency.top_concat_of_mem hmem]
    exact (Recency.renew_perm hnodup hmem).trans h.held
  · rfl

/-- A page that is not resident is loaded, where there is room, and accessed, and the clock ticks. The
page that left, if one had to, is out of reach then. -/
theorem miss (h : Stacked (n + 1) r trace) (hp : p ∉ r.resident) : ∃ r' left,
    r.access p = .ok r' ∧ Stacked (n + 1) r'.tick (trace ++ [p]) ∧ r'.loads = r.loads + 1 ∧
    r'.victims = r.victims ++ left ∧ ∀ q ∈ left, Recency.Distant (n + 1) q (trace ++ [p]) := by
  have hmem : p ∉ Recency.top (n + 1) trace := fun hm => hp (h.held.mem_iff.mp hm)
  obtain ⟨left, hmake, hheld, hleft⟩ := h.makeRoom
  have hfree : p ∉ Recency.top n trace := fun hm =>
    hp (mem_resident_of_makeRoom (hheld.mem_iff.mp hm))
  have hpolicy : r.makeRoom.policy = .clock (Recency.top n trace).reverse := by rw [hmake]
  have hunused : r.makeRoom.accessed = [] := by rw [hmake, h.accessed]
  have htick := tick_touch_takeIn hpolicy hunused (by simpa using hfree) (r.makeRoom.loads + 1)
  refine ⟨_, left, access_of_not_mem hp (by simpa [hpolicy, Policy.tracked] using hfree),
    ?_, ?_, ?_, ?_⟩
  · rw [htick]
    constructor
    · rw [hmake]
      exact h.budget
    · rw [Recency.top_concat_of_not_mem hmem, List.reverse_cons]
    · rw [Recency.top_concat_of_not_mem hmem]
      exact hheld.cons p
    · rfl
  · rw [hmake]
    rfl
  · rw [hmake]
    rfl
  · intro q hq
    obtain ⟨hres, hbelow⟩ := hleft q hq
    have hne : q ≠ p := fun he => hp (he ▸ hres)
    have hout : q ∉ Recency.top (n + 1) (trace ++ [p]) := by
      simp [Recency.top_concat_of_not_mem hmem, hne, hbelow]
    rwa [Recency.mem_top, not_not] at hout

/-- An access is a load exactly if its page is out of reach. What left to make room is out of reach
after the tick. -/
theorem access (h : Stacked (n + 1) r trace) (p : Page) : ∃ r' left,
    r.access p = .ok r' ∧ Stacked (n + 1) r'.tick (trace ++ [p]) ∧
    r'.loads = r.loads + (if Recency.Distant (n + 1) p trace then 1 else 0) ∧
    r'.victims = r.victims ++ left ∧
    ∀ q ∈ left, Recency.Distant (n + 1) q (trace ++ [p]) := by
  by_cases hp : p ∈ r.resident
  · have hnear : ¬ Recency.Distant (n + 1) p trace := fun hd => h.not_mem_resident_iff.mpr hd hp
    refine ⟨r.touch p, #[], access_of_mem hp, h.hit hp, ?_, ?_, by simp⟩
    · rw [if_neg hnear]
      rfl
    · rw [Array.append_empty]
      rfl
  · rw [if_pos (h.not_mem_resident_iff.mp hp)]
    exact h.miss hp

/-- Every trace brings the clock to the top of its stack. -/
theorem exists_run (n : Nat) (trace : List Page) :
    ∃ r, run 1 0 trace (cold (n + 1)) = .ok r ∧ Stacked (n + 1) r trace := by
  induction trace using List.reverseRecOn with
  | nil => exact ⟨cold (n + 1), rfl, start (n + 1)⟩
  | append_singleton trace p ih =>
    obtain ⟨r, hrun, h⟩ := ih
    obtain ⟨r', -, haccess, h', -⟩ := h.access p
    exact ⟨r'.tick, run_concat_of_access hrun haccess, h'⟩

theorem of_run (hrun : run 1 0 trace (cold (n + 1)) = .ok r) : Stacked (n + 1) r trace := by
  obtain ⟨r', hrun', h⟩ := exists_run n trace
  rwa [Except.ok.inj (hrun.symm.trans hrun')]

/-- A page does not leave while few other pages are accessed. -/
theorem exists_run_between (before : List Page) (h : (between.toFinset.erase p).card < n + 1) :
    ∃ r r' left, run 1 0 (before ++ [p]) (cold (n + 1)) = .ok r ∧
      run 1 0 (before ++ p :: between) (cold (n + 1)) = .ok r' ∧
      r'.victims = r.victims ++ left ∧ p ∉ left := by
  induction between using List.reverseRecOn with
  | nil =>
    obtain ⟨r, hrun, -⟩ := exists_run n (before ++ [p])
    exact ⟨r, r, #[], hrun, hrun, Array.append_empty.symm, Array.not_mem_empty p⟩
  | append_singleton between q ih =>
    have hsub : between.toFinset.erase p ⊆ (between ++ [q]).toFinset.erase p :=
      Finset.erase_subset_erase p (by simp)
    obtain ⟨r, r', left, hrun, hrun', hvictims, hleft⟩ :=
      ih ((Finset.card_le_card hsub).trans_lt h)
    obtain ⟨r'', last, haccess, -, -, hlast, hdistant⟩ := (of_run hrun').access q
    have hnext := run_concat_of_access hrun' haccess
    have hnear := Recency.not_distant_of_between before h
    rw [List.append_assoc, List.cons_append] at hnext hdistant
    refine ⟨r, r''.tick, left ++ last, hrun, hnext, ?_, ?_⟩
    · rw [← Array.append_assoc, ← hvictims, ← hlast]
      rfl
    · rw [Array.mem_append, not_or]
      exact ⟨hleft, fun hmem => hnear (hdistant p hmem)⟩

/-- A clock with more room loads no more often. -/
theorem exists_run_le (hle : n ≤ larger) (trace : List Page) :
    ∃ r r', run 1 0 trace (cold (n + 1)) = .ok r ∧ run 1 0 trace (cold (larger + 1)) = .ok r' ∧
      r'.loads ≤ r.loads := by
  induction trace using List.reverseRecOn with
  | nil => exact ⟨_, _, rfl, rfl, Nat.le_refl 0⟩
  | append_singleton trace p ih =>
    obtain ⟨r, r', hrun, hrun', hloads⟩ := ih
    obtain ⟨s, -, haccess, -, hs, -⟩ := (of_run hrun).access p
    obtain ⟨s', -, haccess', -, hs', -⟩ := (of_run hrun').access p
    refine ⟨s.tick, s'.tick, run_concat_of_access hrun haccess, run_concat_of_access hrun' haccess',
      ?_⟩
    change s'.loads ≤ s.loads
    rw [hs, hs']
    by_cases hfar : Recency.Distant (larger + 1) p trace
    · rw [if_pos hfar, if_pos (hfar.anti (Nat.succ_le_succ hle))]
      omega
    · rw [if_neg hfar]
      omega

end Stacked

/-- Every trace can be replayed against a clock that holds no page at first, has room for a page and
ticks after every access. An access in it is a load exactly if its page was not accessed before, or
at least as many other pages as there is room for were accessed since. So more room never takes more
loads, and a page does not leave while fewer other pages are accessed. -/
theorem run_clock_load_iff_distant (room : Nat) (hroom : 0 < room) :
    (∀ before p after, ∃ r r' last, run 1 0 before (cold room) = .ok r ∧ r.access p = .ok r' ∧
      run 1 (before.length + 1) after r'.tick = .ok last ∧
      run 1 0 (before ++ p :: after) (cold room) = .ok last ∧
      (p ∉ r.resident ↔ Recency.Distant room p before) ∧
      r'.loads = r.loads + (if Recency.Distant room p before then 1 else 0)) ∧
    (∀ larger trace, room ≤ larger → ∃ r r', run 1 0 trace (cold room) = .ok r ∧
      run 1 0 trace (cold larger) = .ok r' ∧ r'.loads ≤ r.loads) ∧
    ∀ before p between, (between.toFinset.erase p).card < room → ∃ r r' left,
      run 1 0 (before ++ [p]) (cold room) = .ok r ∧
      run 1 0 (before ++ p :: between) (cold room) = .ok r' ∧
      r'.victims = r.victims ++ left ∧ p ∉ left ∧ p ∈ r'.resident := by
  obtain ⟨n, rfl⟩ := Nat.exists_eq_succ_of_ne_zero hroom.ne'
  refine ⟨?_, ?_, ?_⟩
  · intro before p after
    obtain ⟨r, hrun, h⟩ := Stacked.exists_run n before
    obtain ⟨r', -, haccess, -, hloads, -⟩ := h.access p
    obtain ⟨last, hlast, -⟩ := Stacked.exists_run n (before ++ p :: after)
    have hwhole := hlast
    rw [run_append, hrun, Nat.zero_add] at hwhole
    exact ⟨r, r', last, hrun, haccess, (run_cons_of_access _ after haccess).symm.trans hwhole, hlast,
      h.not_mem_resident_iff, hloads⟩
  · intro larger trace hle
    obtain ⟨k, rfl⟩ := Nat.exists_eq_succ_of_ne_zero (hroom.trans_le hle).ne'
    exact Stacked.exists_run_le (Nat.succ_le_succ_iff.mp hle) trace
  · intro before p between hfew
    obtain ⟨r, r', left, hrun, hrun', hvictims, hleft⟩ := Stacked.exists_run_between before hfew
    refine ⟨r, r', left, hrun, hrun', hvictims, hleft, ?_⟩
    have hnear := Recency.not_distant_of_between before hfew
    exact not_not.mp fun hres => hnear ((Stacked.of_run hrun').not_mem_resident_iff.mp hres)

/-- With room for two pages, page 1 is too far back when it is accessed again; with room for three it
is still there, and page 0 never leaves. -/
theorem run_clock_load_iff_distant_two_rooms :
    (∃ r r', run 1 0 [0, 1, 0, 2] (cold 2) = .ok r ∧ r.access 1 = .ok r' ∧
      (1 : Page) ∉ r.resident ∧ r'.loads = r.loads + 1) ∧
    (∃ r r', run 1 0 [0, 1, 0, 2] (cold 3) = .ok r ∧ r.access 1 = .ok r' ∧
      (1 : Page) ∈ r.resident ∧ r'.loads = r.loads) ∧
    (∃ r r', run 1 0 [0, 1, 0, 2, 1] (cold 2) = .ok r ∧
      run 1 0 [0, 1, 0, 2, 1] (cold 3) = .ok r' ∧ r'.loads ≤ r.loads) ∧
    ∃ r r' left, run 1 0 [0, 1, 0] (cold 2) = .ok r ∧ run 1 0 [0, 1, 0, 2] (cold 2) = .ok r' ∧
      r'.victims = r.victims ++ left ∧ (0 : Page) ∉ left ∧ 0 ∈ r'.resident := by
  obtain ⟨hloads, hmore, hstays⟩ := run_clock_load_iff_distant 2 (by decide)
  obtain ⟨r, r', -, hrun, haccess, -, -, hres, hcount⟩ := hloads [0, 1, 0, 2] 1 []
  have hfar : Recency.Distant 2 1 [0, 1, 0, 2] := by decide
  obtain ⟨s, s', -, hrun', haccess', -, -, hres', hcount'⟩ :=
    (run_clock_load_iff_distant 3 (by decide)).1 [0, 1, 0, 2] 1 []
  have hnear : ¬ Recency.Distant 3 1 [0, 1, 0, 2] := by decide
  refine ⟨⟨r, r', hrun, haccess, hres.mpr hfar, ?_⟩, ⟨s, s', hrun', haccess', ?_, ?_⟩,
    hmore 3 _ (by decide), hstays [0, 1] 0 [2] (by decide)⟩
  · rw [hcount, if_pos hfar]
  · exact not_not.mp fun hn => hnear (hres'.mp hn)
  · rw [hcount', if_neg hnear, Nat.add_zero]

end Replay

end DemandPaging
