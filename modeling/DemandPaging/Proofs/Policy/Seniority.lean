import DemandPaging.Policy.Observed
import DemandPaging.Proofs.Policy.Tracked
import Mathlib.Data.List.Nodup

/-!
# The order in which a clock holds its pages

A policy is told of three things: a page was loaded, the timer expired, a page has to leave. A page
is renewed when it is loaded, and when a tick withdraws its rights because it was used. A clock
keeps no record of this, and yet its queue is always sorted by the last renewal. A load puts the
newest page behind all others. A tick does the same with all pages that it renews; one that is cut
short by a refusal renews fewer pages, and those that it did not reach keep their places in front.
Pages that one tick renewed stay in the order in which it found them. The page at the head, which
leaves next, is therefore one whose last renewal lies furthest back.
-/

namespace DemandPaging

namespace Policy

/-- What a policy is told. -/
inductive Notice : Type 1 where
  /-- A page was loaded. -/
  | loaded (page : Page)
  /-- The timer expired. The policy sees its pages through a tracker, which is in some state. -/
  | tick {σ ε : Type} (t : Tracker σ ε) (s : σ)
  /-- A page has to leave. -/
  | evict

/-- The policy after a notice. A page that was loaded must not be held already. -/
def told (p : Policy) : Notice → Except Panic Policy
  | .loaded page => p.insert page
  | .tick t s => .ok (p.tick t s).policy
  | .evict => .ok p.evict.2

/-- The pages that a notice renews. -/
def renewed (p : Policy) : Notice → List Page
  | .loaded page => [page]
  | .tick t s => (p.tick t s).revoked
  | .evict => []

/-- The policy after a history of notices, of which the last one stands first. -/
def after (start : Policy) : List Notice → Except Panic Policy
  | [] => .ok start
  | x :: earlier => do (← start.after earlier).told x

/-- The number of the notice that renewed a page last, the first notice of the history being number
one; zero, if there was none. -/
def lastRenewal (start : Policy) (page : Page) : List Notice → Nat
  | [] => 0
  | x :: earlier =>
    match start.after earlier with
    | .ok p =>
      if (p.renewed x).contains page then earlier.length + 1 else start.lastRenewal page earlier
    | .error _ => start.lastRenewal page earlier

/-- One tick of the history renewed both pages for the last time, and it found `a` before `b`. -/
def FoundInOrder (start : Policy) (history : List Notice) (a b : Page) : Prop :=
  ∃ (later earlier : List Notice) (σ ε : Type) (t : Tracker σ ε) (s : σ) (p : Policy),
    history = later ++ .tick t s :: earlier ∧
      start.lastRenewal a history = earlier.length + 1 ∧
      start.lastRenewal b history = earlier.length + 1 ∧
      start.after earlier = .ok p ∧ [a, b].Sublist p.tracked

/-- Page `a` was renewed for the last time before page `b` was, or together with it and in this
order. -/
def Senior (start : Policy) (history : List Notice) (a b : Page) : Prop :=
  start.lastRenewal a history < start.lastRenewal b history ∨ start.FoundInOrder history a b

variable {start p : Policy} {history earlier : List Notice} {x : Notice} {a b page : Page}

/-! ## Renewals -/

theorem after_cons (hp : start.after earlier = .ok p) (x : Notice) :
    start.after (x :: earlier) = p.told x := by
  rw [after, hp]
  rfl

/-- A history whose last notice was taken without a refusal. -/
theorem exists_of_after_cons (h : start.after (x :: earlier) = .ok p) :
    ∃ q, start.after earlier = .ok q ∧ q.told x = .ok p := by
  cases hq : start.after earlier with
  | error e => simp [after, hq, bind, Except.bind] at h
  | ok q => exact ⟨q, rfl, by rwa [after_cons hq] at h⟩

theorem lastRenewal_of_mem (hp : start.after earlier = .ok p) (ha : a ∈ p.renewed x) :
    start.lastRenewal a (x :: earlier) = earlier.length + 1 := by
  simp only [lastRenewal, hp, List.contains_iff_mem, ha, ite_true]

theorem lastRenewal_of_not_mem (hp : start.after earlier = .ok p) (ha : a ∉ p.renewed x) :
    start.lastRenewal a (x :: earlier) = start.lastRenewal a earlier := by
  simp only [lastRenewal, hp, List.contains_iff_mem, ha, ite_false]

/-- No renewal is newer than the history. -/
theorem lastRenewal_le (start : Policy) (page : Page) (history : List Notice) :
    start.lastRenewal page history ≤ history.length := by
  induction history with
  | nil => simp [lastRenewal]
  | cons x earlier ih =>
    rw [List.length_cons, lastRenewal]
    split
    · split <;> omega
    · omega

/-- Two pages that a notice does not renew keep their seniority. -/
theorem Senior.cons (h : start.Senior earlier a b) (hp : start.after earlier = .ok p)
    (ha : a ∉ p.renewed x) (hb : b ∉ p.renewed x) : start.Senior (x :: earlier) a b := by
  have hla := lastRenewal_of_not_mem hp ha
  have hlb := lastRenewal_of_not_mem hp hb
  rcases h with hlt | ⟨later, first, σ, ε, t, s, q, rfl, hna, hnb, hq, horder⟩
  · left
    rwa [hla, hlb]
  · right
    exact ⟨x :: later, first, σ, ε, t, s, q, rfl, hla.trans hna, hlb.trans hnb, hq, horder⟩

/-- A page that a notice renews comes behind one that it does not renew. -/
theorem senior_of_renewed (hp : start.after earlier = .ok p) (ha : a ∉ p.renewed x)
    (hb : b ∈ p.renewed x) : start.Senior (x :: earlier) a b := by
  left
  rw [lastRenewal_of_not_mem hp ha, lastRenewal_of_mem hp hb]
  have hle := lastRenewal_le start a earlier
  omega

/-- Two pages that a tick renews keep the order in which it found them. -/
theorem senior_of_tick {σ ε : Type} {t : Tracker σ ε} {s : σ} (hp : start.after earlier = .ok p)
    (ha : a ∈ p.renewed (.tick t s)) (hb : b ∈ p.renewed (.tick t s))
    (horder : [a, b].Sublist p.tracked) : start.Senior (.tick t s :: earlier) a b := by
  right
  exact ⟨[], earlier, σ, ε, t, s, p, rfl, lastRenewal_of_mem hp ha, lastRenewal_of_mem hp hb, hp,
    horder⟩

theorem Senior.le (h : start.Senior history a b) :
    start.lastRenewal a history ≤ start.lastRenewal b history := by
  rcases h with hlt | ⟨_, _, _, _, _, _, _, _, ha, hb, _⟩
  · exact Nat.le_of_lt hlt
  · exact Nat.le_of_eq (ha.trans hb.symm)

/-! ## The queue of a clock -/

/-- What holds of a clock after a history. -/
structure Ordered (history : List Notice) (p : Policy) : Prop where
  /-- The policy is a clock. -/
  policy : p = .clock p.tracked
  /-- It holds no page twice. -/
  nodup : p.tracked.Nodup
  /-- Every page that it holds was renewed. -/
  renewed : ∀ page ∈ p.tracked, 0 < (clock []).lastRenewal page history
  /-- Of two pages that it holds, the one in front is the senior one. -/
  senior : p.tracked.Pairwise ((clock []).Senior history)

namespace Ordered

/-- The page that was loaded last stands behind all others. -/
theorem loaded (h : Ordered earlier p) (hp : (clock []).after earlier = .ok p)
    (hnew : page ∉ p.tracked) : Ordered (.loaded page :: earlier) (p.takeIn page) := by
  have hmem : page ∈ p.renewed (.loaded page) := List.mem_singleton_self page
  have hold : ∀ a ∈ p.tracked, a ∉ p.renewed (.loaded page) := by
    intro a ha he
    rw [List.mem_singleton.mp he] at ha
    exact hnew ha
  constructor
  · rw [h.policy]
    rfl
  · rw [tracked_takeIn, (List.perm_append_singleton page _).nodup_iff, List.nodup_cons]
    exact ⟨hnew, h.nodup⟩
  · intro a ha
    rw [tracked_takeIn, List.mem_append, List.mem_singleton] at ha
    rcases ha with ha | rfl
    · rw [lastRenewal_of_not_mem hp (hold a ha)]
      exact h.renewed a ha
    · rw [lastRenewal_of_mem hp hmem]
      omega
  · rw [tracked_takeIn, List.pairwise_append]
    refine ⟨?_, List.pairwise_singleton .., ?_⟩
    · apply h.senior.imp_of_mem
      intro a b ha hb hab
      exact hab.cons hp (hold a ha) (hold b hb)
    · intro a ha b hb
      rw [List.mem_singleton.mp hb]
      exact senior_of_renewed hp (hold a ha) hmem

/-- A tick moves the pages that it renews behind the others, however far its pass came. -/
theorem tick (h : Ordered earlier p) (hp : (clock []).after earlier = .ok p) {σ ε : Type}
    (t : Tracker σ ε) (s : σ) : Ordered (.tick t s :: earlier) (p.tick t s).policy := by
  obtain ⟨queue, rfl⟩ : ∃ queue, p = .clock queue := ⟨p.tracked, h.policy⟩
  have hperm := sweep_perm t queue s
  have hkept := sweep_kept_sublist t queue s
  have hrevoked := sweep_revoked_sublist t queue s
  have hnodup := hperm.nodup_iff.mpr h.nodup
  have hstays : ∀ a ∈ (sweep t queue s).kept, a ∉ (clock queue).renewed (.tick t s) := by
    intro a ha
    exact (List.nodup_append'.mp hnodup).2.2 ha
  constructor
  · rfl
  · exact hnodup
  · intro a ha
    by_cases hr : a ∈ (clock queue).renewed (.tick t s)
    · rw [lastRenewal_of_mem hp hr]
      omega
    · rw [lastRenewal_of_not_mem hp hr]
      exact h.renewed a (hperm.mem_iff.mp ha)
  · change ((sweep t queue s).kept ++ (sweep t queue s).revoked).Pairwise _
    rw [List.pairwise_append]
    refine ⟨?_, ?_, ?_⟩
    · apply (h.senior.sublist hkept).imp_of_mem
      intro a b ha hb hab
      exact hab.cons hp (hstays a ha) (hstays b hb)
    · rw [List.pairwise_iff_forall_sublist]
      intro a b hab
      have ha : a ∈ (sweep t queue s).revoked := hab.subset (by simp)
      have hb : b ∈ (sweep t queue s).revoked := hab.subset (by simp)
      exact senior_of_tick hp ha hb (hab.trans hrevoked)
    · intro a ha b hb
      exact senior_of_renewed hp (hstays a ha) hb

/-- The page at the head leaves, if there is one. -/
theorem evict (h : Ordered earlier p) (hp : (clock []).after earlier = .ok p) :
    Ordered (.evict :: earlier) p.evict.2 := by
  have hnone : ∀ a, a ∉ p.renewed .evict := fun a => List.not_mem_nil
  have hsublist : p.evict.2.tracked.Sublist p.tracked := by
    rw [h.policy]
    cases p.tracked with
    | nil => exact .slnil
    | cons victim queue => exact List.sublist_cons_self victim queue
  constructor
  · rw [h.policy]
    cases p.tracked <;> rfl
  · exact h.nodup.sublist hsublist
  · intro a ha
    rw [lastRenewal_of_not_mem hp (hnone a)]
    exact h.renewed a (hsublist.subset ha)
  · apply (h.senior.sublist hsublist).imp
    intro a b hab
    exact hab.cons hp (hnone a) (hnone b)

/-- Every history leaves the queue ordered. -/
theorem of_after (hp : (clock []).after history = .ok p) : Ordered history p := by
  induction history generalizing p with
  | nil =>
    cases hp
    constructor <;> simp [tracked]
  | cons x earlier ih =>
    obtain ⟨q, hq, htold⟩ := exists_of_after_cons hp
    have h := ih hq
    cases x with
    | loaded page =>
      by_cases hheld : page ∈ q.tracked
      · have hrefused : q.insert page = .error (.mappedTwice page) :=
          if_pos (List.contains_iff_mem.mpr hheld)
        cases hrefused.symm.trans htold
      · cases (insert_eq_takeIn hheld).symm.trans htold
        exact h.loaded hq hheld
    | tick t s =>
      cases htold
      exact h.tick hq t s
    | evict =>
      cases htold
      exact h.evict hq

end Ordered

/-- A clock that was told of loads of pages that it did not hold, of ticks that see its pages in
any way and are refused anywhere, and of evictions, holds pages that were renewed only. They are
sorted by their last renewal; pages with the same last renewal stand in the order in which that tick
found them; and the page that leaves next is one whose last renewal lies furthest back. -/
theorem sorted_lastRenewal_of_after (hp : (clock []).after history = .ok p) :
    (∀ a ∈ p.tracked, 0 < (clock []).lastRenewal a history) ∧
      p.tracked.Pairwise (fun a b =>
        (clock []).lastRenewal a history ≤ (clock []).lastRenewal b history) ∧
      (∀ a b, [a, b].Sublist p.tracked →
        (clock []).lastRenewal a history = (clock []).lastRenewal b history →
          (clock []).FoundInOrder history a b) ∧
      ∀ victim rest, p.evict = (some victim, rest) →
        ∀ b ∈ p.tracked, (clock []).lastRenewal victim history ≤ (clock []).lastRenewal b history := by
  have h := Ordered.of_after hp
  have hsorted := h.senior.imp fun hab => hab.le
  refine ⟨h.renewed, hsorted, ?_, ?_⟩
  · intro a b hab heq
    rcases List.pairwise_iff_forall_sublist.mp h.senior hab with hlt | htied
    · omega
    · exact htied
  · intro victim rest hevict b hb
    obtain ⟨queue, rfl⟩ : ∃ queue, p = .clock queue := ⟨p.tracked, h.policy⟩
    cases queue with
    | nil => cases hevict
    | cons head queue =>
      cases hevict
      rcases List.mem_cons.mp hb with rfl | hb
      · exact Nat.le_refl _
      · exact (List.pairwise_cons.mp hsorted).1 b hb

/-- Pages 0, 2 and 3 were used, and the pass ends at page 3, which keeps its place behind page 1. -/
theorem sorted_lastRenewal_of_after_refused_tick : ∃ history : List Notice,
    history = [.tick (Observed.tracker [3]) [0, 2, 3], .loaded 3, .loaded 2, .loaded 1, .loaded 0] ∧
      (clock []).after history = .ok (.clock [1, 3, 0, 2]) ∧
      [1, 3, 0, 2].map ((clock []).lastRenewal · history) = [2, 4, 5, 5] ∧
      (clock []).FoundInOrder history 0 2 ∧
      ∀ b ∈ [1, 3, 0, 2], (clock []).lastRenewal 1 history ≤ (clock []).lastRenewal b history := by
  refine ⟨_, rfl, rfl, rfl, ?_⟩
  have hrun : (clock []).after [.tick (Observed.tracker [3]) [0, 2, 3], .loaded 3, .loaded 2,
    .loaded 1, .loaded 0] = .ok (.clock [1, 3, 0, 2]) := rfl
  obtain ⟨-, -, htied, hvictim⟩ := sorted_lastRenewal_of_after hrun
  exact ⟨htied 0 2 (by decide) rfl, hvictim 1 _ rfl⟩

end Policy

end DemandPaging
