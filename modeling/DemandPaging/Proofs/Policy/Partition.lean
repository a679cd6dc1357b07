import DemandPaging.Policy.Observed
import Mathlib.Data.List.Nodup
import Mathlib.Data.List.TakeWhile

/-!
# A tick of the clock as a stable partition

A tick divides the queue of a clock into the pages whose rights it withdraws and the others. It
withdraws the rights of the pages that were used, up to the first of them whose rights cannot be
withdrawn; this obstacle and everything behind it stay as they are. Both parts keep their order, and
the withdrawn pages go to the back.

The clock itself rotates: each turn takes the page at the head and puts it at the back, or sets it
aside if its rights were withdrawn, and what was set aside goes to the back in the end. After one
turn for each page the two ways agree, and nothing is left aside.
-/

namespace DemandPaging

variable {σ ε : Type} {queue : List Page} {p q : Page}

namespace Tracker

/-- A tracker whose withdrawals do what they should: a page whose rights are withdrawn no longer
counts as used, no other page is affected, and a refusal names its page. -/
structure Faithful (t : Tracker σ RevokeError) : Prop where
  /-- A withdrawal forgets the use of its page only. -/
  accessed_revoke : ∀ s p q, t.accessed (t.revoke s p) q = (t.accessed s q && q != p)
  /-- A withdrawal does not change what is refused. -/
  refusal_revoke : ∀ s p q, t.refusal (t.revoke s p) q = t.refusal s q
  /-- A refusal names its page. -/
  page_of_refusal : ∀ {s p e}, t.refusal s p = some e → e.page = p

/-- The page was used, but its rights cannot be withdrawn. -/
def blocks (t : Tracker σ ε) (s : σ) (p : Page) : Bool := t.accessed s p && (t.refusal s p).isSome

/-- The first page of a queue that blocks a pass. -/
def obstacle? (t : Tracker σ ε) (s : σ) (queue : List Page) : Option Page :=
  queue.find? (t.blocks s)

/-- The pages of a queue that were used and stand in front of the obstacle, if there is one. -/
def withdrawn (t : Tracker σ ε) (s : σ) (queue : List Page) : List Page :=
  (queue.takeWhile fun p => !t.blocks s p).filter (t.accessed s)

variable {t : Tracker σ ε} {s s' : σ}

theorem withdrawn_sublist (t : Tracker σ ε) (s : σ) (queue : List Page) :
    (t.withdrawn s queue).Sublist queue :=
  List.filter_sublist.trans (List.takeWhile_sublist _)

/-- A page that blocks the pass ends it. -/
theorem divide_of_blocks (hb : t.blocks s p = true) :
    t.withdrawn s (p :: queue) = [] ∧ t.obstacle? s (p :: queue) = some p := by
  simp [withdrawn, obstacle?, hb]

/-- A page that was used is withdrawn if it does not block the pass. -/
theorem divide_of_used (hu : t.accessed s p = true) (hb : t.blocks s p = false) :
    t.withdrawn s (p :: queue) = p :: t.withdrawn s queue ∧
      t.obstacle? s (p :: queue) = t.obstacle? s queue := by
  simp [withdrawn, obstacle?, hu, hb]

/-- A page that was not used is passed over. -/
theorem divide_of_unused (hu : ¬ t.accessed s p = true) :
    t.withdrawn s (p :: queue) = t.withdrawn s queue ∧
      t.obstacle? s (p :: queue) = t.obstacle? s queue := by
  have hb : t.blocks s p = false := by simp [blocks, hu]
  simp [withdrawn, obstacle?, hu, hb]

/-- Only what the tracker says of the pages of the queue counts. -/
theorem divide_congr
    (h : ∀ q ∈ queue, t.accessed s' q = t.accessed s q ∧ t.refusal s' q = t.refusal s q) :
    t.withdrawn s' queue = t.withdrawn s queue ∧ t.obstacle? s' queue = t.obstacle? s queue := by
  induction queue with
  | nil => exact ⟨rfl, rfl⟩
  | cons p queue ih =>
    obtain ⟨⟨hused, hrefusal⟩, hqueue⟩ := List.forall_mem_cons.mp h
    have hblocks : t.blocks s' p = t.blocks s p := by rw [blocks, blocks, hused, hrefusal]
    by_cases hu : t.accessed s p = true
    · cases hb : t.blocks s p with
      | true => simp [divide_of_blocks, hblocks, hb]
      | false => simp [divide_of_used, hused, hu, hblocks, hb, ih hqueue]
    · simp [divide_of_unused, hused, hu, ih hqueue]

end Tracker

/-! ## The pass -/

section Pass

variable {t : Tracker σ RevokeError}

/-- What counts as used after rights were withdrawn from pages in a row. -/
theorem Tracker.Faithful.accessed_foldl (ht : t.Faithful) (pages : List Page) (s : σ) (q : Page) :
    t.accessed (pages.foldl t.revoke s) q = (t.accessed s q && !pages.contains q) := by
  induction pages generalizing s with
  | nil => simp
  | cons p pages ih =>
    rw [List.foldl_cons, ih, ht.accessed_revoke]
    by_cases hq : q = p
    · simp [hq]
    · have hne : (q != p) = true := bne_iff_ne.mpr hq
      simp [hq, hne]

/-- A withdrawal says nothing new about the pages of a queue that its page is not in. -/
theorem Tracker.Faithful.divide_revoke (ht : t.Faithful) (hp : p ∉ queue) (s : σ) :
    t.withdrawn (t.revoke s p) queue = t.withdrawn s queue ∧
      t.obstacle? (t.revoke s p) queue = t.obstacle? s queue := by
  apply divide_congr
  intro q hq
  have hne : q ≠ p := fun he => hp (he ▸ hq)
  simp [ht.accessed_revoke, ht.refusal_revoke, hne]

/-- A pass keeps the other pages in place, withdraws rights from one page after the other, and ends
with the refusal of the obstacle. -/
theorem sweep_eq (ht : t.Faithful) (hnodup : queue.Nodup) (s : σ) :
    sweep t queue s =
      ⟨queue.removeAll (t.withdrawn s queue), t.withdrawn s queue,
        (t.withdrawn s queue).foldl t.revoke s, (t.obstacle? s queue).bind (t.refusal s)⟩ := by
  induction queue generalizing s with
  | nil => rfl
  | cons p queue ih =>
    obtain ⟨hp, hrest⟩ := List.nodup_cons.mp hnodup
    by_cases hu : t.accessed s p = true
    · cases hf : t.refusal s p with
      | some e =>
        have hb : t.blocks s p = true := by simp [Tracker.blocks, hu, hf]
        simp [sweep, Tracker.divide_of_blocks hb, hu, hf]
      | none =>
        have hb : t.blocks s p = false := by simp [Tracker.blocks, hf]
        -- the rest of the pass starts in another state, which says the same of the rest of the queue
        have hstate := ht.divide_revoke hp s
        have hrefusal : t.refusal (t.revoke s p) = t.refusal s := funext (ht.refusal_revoke s p)
        have hother : queue.filter (!· == p) = queue := by
          rw [List.filter_eq_self]
          intro q hq
          have hne : q ≠ p := fun he => hp (he ▸ hq)
          simpa using hne
        simp [sweep, hu, hf, ih hrest, hstate, hrefusal, Tracker.divide_of_used hu hb,
          List.removeAll_cons, hother]
    · have hstays : p ∉ t.withdrawn s queue := fun hm =>
        hp ((t.withdrawn_sublist s queue).subset hm)
      simp [sweep, hu, ih hrest, Tracker.divide_of_unused hu, List.cons_removeAll, hstays]

/-- The refusal of the obstacle names it. -/
theorem Tracker.Faithful.page_of_obstacle (ht : t.Faithful) (s : σ) (queue : List Page) :
    ((t.obstacle? s queue).bind (t.refusal s)).map (·.page) = t.obstacle? s queue := by
  cases ho : t.obstacle? s queue with
  | none => rfl
  | some f =>
    have hblocks : t.blocks s f = true := List.find?_some ho
    obtain ⟨e, he⟩ := Option.isSome_iff_exists.mp (Bool.and_eq_true_iff.mp hblocks).2
    simp [he, ht.page_of_refusal he]

/-- Without an obstacle every page that was used is withdrawn. -/
theorem Tracker.mem_withdrawn_iff {t : Tracker σ ε} {s : σ} (h : t.obstacle? s queue = none) :
    p ∈ t.withdrawn s queue ↔ p ∈ queue ∧ t.accessed s p = true := by
  have hall : queue.takeWhile (fun p => !t.blocks s p) = queue := by
    simpa [obstacle?, List.takeWhile_eq_self_iff] using h
  rw [withdrawn, hall, List.mem_filter]

/-- Neither the obstacle nor a page behind it is withdrawn. -/
theorem Tracker.not_mem_withdrawn (t : Tracker σ ε) {s : σ} (hnodup : queue.Nodup)
    (hp : p ∈ queue.dropWhile fun p => !t.blocks s p) : p ∉ t.withdrawn s queue := by
  rw [← List.takeWhile_append_dropWhile (p := fun p => !t.blocks s p) (l := queue)] at hnodup
  intro hm
  exact (List.nodup_append'.mp hnodup).2.2 (List.mem_of_mem_filter hm) hp

end Pass

/-! ## The rotation -/

/-- A rotation of a queue. -/
structure Rotation (σ ε : Type) where
  /-- The pages that had no turn yet, and behind them those that went to the back. -/
  queue : List Page
  /-- The pages that were set aside. -/
  aside : List Page
  /-- The state that the tracker works on. -/
  state : σ
  /-- The first refusal. After it no page is set aside any more. -/
  refused : Option ε

namespace Rotation

/-- The page at the head has its turn. -/
def turn (t : Tracker σ ε) (r : Rotation σ ε) : Rotation σ ε :=
  match r.queue with
  | [] => r
  | p :: rest =>
    if r.refused.isNone && t.accessed r.state p then
      match t.refusal r.state p with
      | none => { r with queue := rest, aside := r.aside ++ [p], state := t.revoke r.state p }
      | some e => { r with queue := rest ++ [p], refused := some e }
    else { r with queue := rest ++ [p] }

/-- So many pages have their turn. -/
def turns (t : Tracker σ ε) : Nat → Rotation σ ε → Rotation σ ε
  | 0, r => r
  | n + 1, r => turns t n (r.turn t)

/-- What was set aside goes to the back. -/
def close (r : Rotation σ ε) : Rotation σ ε := { r with queue := r.queue ++ r.aside, aside := [] }

/-- Every page of the queue has one turn. -/
def full (t : Tracker σ ε) (queue : List Page) (s : σ) : Rotation σ ε :=
  (turns t queue.length ⟨queue, [], s, none⟩).close

variable (t : Tracker σ ε)

/-- After a refusal the turns only go round. -/
theorem turns_of_refused (todo done aside : List Page) (s : σ) (e : ε) :
    turns t todo.length ⟨todo ++ done, aside, s, some e⟩ = ⟨done ++ todo, aside, s, some e⟩ := by
  induction todo generalizing done with
  | nil => simp [turns]
  | cons p todo ih => simpa [turns, turn] using ih (done ++ [p])

/-- The turns of the first pages of a queue are a pass over them. -/
theorem turns_eq (todo done aside : List Page) (s : σ) :
    turns t todo.length ⟨todo ++ done, aside, s, none⟩ =
      ⟨done ++ (sweep t todo s).kept, aside ++ (sweep t todo s).revoked, (sweep t todo s).state,
        (sweep t todo s).refused⟩ := by
  induction todo generalizing done aside s with
  | nil => simp [turns, sweep]
  | cons p todo ih =>
    by_cases hu : t.accessed s p = true
    · cases hf : t.refusal s p with
      | some e =>
        simpa [turns, turn, sweep, hu, hf] using turns_of_refused t todo (done ++ [p]) aside s e
      | none => simpa [turns, turn, sweep, hu, hf] using ih done (aside ++ [p]) (t.revoke s p)
    · simpa [turns, turn, sweep, hu] using ih (done ++ [p]) aside s

theorem full_eq (queue : List Page) (s : σ) :
    full t queue s = ⟨(sweep t queue s).kept ++ (sweep t queue s).revoked, [],
      (sweep t queue s).state, (sweep t queue s).refused⟩ := by
  have h := turns_eq t queue [] [] s
  rw [List.append_nil] at h
  rw [full, h]
  rfl

end Rotation

/-! ## The tick -/

/-- The pages that are refused under observation do not depend on what was withdrawn. -/
theorem Observed.faithful_tracker (refusing : List Page) : (tracker refusing).Faithful where
  accessed_revoke used p q := by
    by_cases hq : q = p <;> simp [tracker, List.contains_eq_mem, hq]
  refusal_revoke used p q := rfl
  page_of_refusal h := by
    simp only [tracker] at h
    split at h
    · cases h
      rfl
    · cases h

namespace Policy

variable {t : Tracker σ RevokeError}

theorem exists_eq_clock {policy : Policy} (h : policy.kind = .clock) :
    ∃ queue, policy = clock queue := by
  cases policy with
  | fifo queue => cases h
  | clock queue => exact ⟨queue, rfl⟩
  | random held stream => cases h

/-- A tick of a clock that holds distinct pages. -/
theorem tick_clock (ht : t.Faithful) (hnodup : queue.Nodup) (s : σ) : (clock queue).tick t s =
    ⟨clock (queue.removeAll (t.withdrawn s queue) ++ t.withdrawn s queue), t.withdrawn s queue,
      (t.withdrawn s queue).foldl t.revoke s, (t.obstacle? s queue).bind (t.refusal s)⟩ := by
  simp only [tick, sweep_eq ht hnodup s]

/-- A clock holds distinct pages, of which any may have been used and any may refuse a withdrawal.
Its tick withdraws the rights of the pages that were used and stand in front of the obstacle, the
first page that was used and refuses: of each of them once, in the order of the queue, and of no
other page. These pages go to the back; both they and the others keep their order. The tick is
refused exactly if there is an obstacle, and the refusal names it. The withdrawn pages no longer
count as used; the obstacle and the pages behind it count as used if they did before. The rotation
that a tick is ends with the same queue, state and refusal, and with no page aside. -/
theorem tick_clock_eq_partition (ht : t.Faithful) (hnodup : queue.Nodup) (s : σ) :
    ((clock queue).tick t s).revoked = t.withdrawn s queue ∧
      ((clock queue).tick t s).state = (t.withdrawn s queue).foldl t.revoke s ∧
      (t.withdrawn s queue).Sublist queue ∧ (t.withdrawn s queue).Nodup ∧
      ((clock queue).tick t s).policy =
        clock (queue.removeAll (t.withdrawn s queue) ++ t.withdrawn s queue) ∧
      ((clock queue).tick t s).refused = (t.obstacle? s queue).bind (t.refusal s) ∧
      ((clock queue).tick t s).refused.map (·.page) = t.obstacle? s queue ∧
      (∀ p, t.accessed ((clock queue).tick t s).state p =
        (t.accessed s p && !(t.withdrawn s queue).contains p)) ∧
      (∀ p ∈ queue.dropWhile fun p => !t.blocks s p,
        t.accessed ((clock queue).tick t s).state p = t.accessed s p) ∧
      Rotation.full t queue s =
        ⟨((clock queue).tick t s).policy.tracked, [], ((clock queue).tick t s).state,
          ((clock queue).tick t s).refused⟩ := by
  have htick := tick_clock ht hnodup s
  have hstate : ((clock queue).tick t s).state = (t.withdrawn s queue).foldl t.revoke s := by
    rw [htick]
  have hrefused : ((clock queue).tick t s).refused = (t.obstacle? s queue).bind (t.refusal s) := by
    rw [htick]
  have hused (p : Page) : t.accessed ((clock queue).tick t s).state p =
      (t.accessed s p && !(t.withdrawn s queue).contains p) := by
    rw [hstate, ht.accessed_foldl]
  refine ⟨?_, hstate, t.withdrawn_sublist s queue, hnodup.sublist (t.withdrawn_sublist s queue), ?_,
    hrefused, ?_, hused, ?_, Rotation.full_eq t queue s⟩
  · rw [htick]
  · rw [htick]
  · rw [hrefused, ht.page_of_obstacle]
  · intro p hp
    simp [hused, t.not_mem_withdrawn hnodup hp]

/-- Pages 0, 2, 3 and 4 were used, and the rights of page 3 cannot be withdrawn. -/
theorem tick_clock_eq_partition_obstacle : ∃ (t : Tracker (List Page) RevokeError) (s : List Page),
    t = Observed.tracker [3] ∧ s = [0, 2, 3, 4] ∧ [0, 1, 2, 3, 4].Nodup ∧
      ((clock [0, 1, 2, 3, 4]).tick t s).revoked = [0, 2] ∧
      ((clock [0, 1, 2, 3, 4]).tick t s).policy = clock [1, 3, 4, 0, 2] ∧
      ((clock [0, 1, 2, 3, 4]).tick t s).refused.map (·.page) = some 3 ∧
      t.accessed ((clock [0, 1, 2, 3, 4]).tick t s).state 4 = true ∧
      (Rotation.full t [0, 1, 2, 3, 4] s).aside = [] := by
  have hnodup : ([0, 1, 2, 3, 4] : List Page).Nodup := by decide
  obtain ⟨hrevoked, -, -, -, hpolicy, -, hrefused, hused, -, hfull⟩ :=
    tick_clock_eq_partition (Observed.faithful_tracker [3]) hnodup [0, 2, 3, 4]
  refine ⟨_, _, rfl, rfl, by decide, hrevoked, hpolicy, hrefused, (hused 4).trans ?_, ?_⟩
  · decide
  · rw [hfull]

end Policy

end DemandPaging
