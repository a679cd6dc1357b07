import DemandPaging.Policy
import Mathlib.Data.List.Perm.Basic

/-!
# The pages held by a policy

Taking a page in adds it behind the others, an eviction takes exactly one page
out, and a tick only reorders. All three statements are about `tracked` and
hold for every policy, so that later modules need no case analysis of their own.
The laws of a pass over the queue come in two forms: what every withdrawal
keeps, the pass keeps; and two passes that see the same pages as used go alike.
-/

namespace DemandPaging

section SwapRemove

variable {α : Type}

/-- The removed element and the remaining ones are the elements of the list. -/
theorem perm_swapRemove {l : List α} {i : Nat} (hi : i < l.length) :
    l.Perm (l[i] :: swapRemove l i) := by
  rcases List.eq_nil_or_concat' l with rfl | ⟨front, last, rfl⟩
  · exact absurd hi (Nat.not_lt_zero i)
  · have hlast : swapRemove (front ++ [last]) i = ((front ++ [last]).set i last).dropLast := by
      simp only [swapRemove, List.getLast?_concat]
    rw [hlast]
    -- the last element moves into the gap, unless it is the removed one itself
    by_cases hf : i < front.length
    · rw [List.set_append_left i last hf, List.dropLast_concat, List.getElem_append_left hf]
      have hset : (front.set i last).Perm (last :: front.eraseIdx i) :=
        List.set_perm_cons_eraseIdx hf last
      have hget : (front[i] :: front.eraseIdx i).Perm front := List.getElem_cons_eraseIdx_perm hf
      calc (front ++ [last]).Perm (last :: front) := List.perm_append_singleton last front
        _ |>.Perm (last :: front[i] :: front.eraseIdx i) := hget.symm.cons last
        _ |>.Perm (front[i] :: last :: front.eraseIdx i) := List.Perm.swap ..
        _ |>.Perm (front[i] :: front.set i last) := hset.symm.cons _
    · have he : i = front.length := by
        rw [List.length_append, List.length_singleton] at hi
        omega
      subst he
      simp only [List.getElem_concat_length, List.set_append_right _ _ (Nat.le_refl _),
        Nat.sub_self, List.set_cons_zero, List.dropLast_concat]
      exact List.perm_append_singleton last front

end SwapRemove

/-- A way of drawing numbers below a bound from a stream. -/
structure Drawing where
  /-- The number that is drawn and the rest of the stream. -/
  draw : Random.Stream → Nat → Nat × Random.Stream
  /-- The number lies below the bound. -/
  lt : ∀ {bound : Nat}, 0 < bound → ∀ stream, (draw stream bound).1 < bound

/-- The draws of a random policy. -/
def Drawing.uniform : Drawing where
  draw stream bound := stream.below .wide bound
  lt h stream := Random.Stream.below_lt .wide h stream

namespace Policy

/-- Choose the page that leaves and let it go, where a random policy draws as `d` says. -/
def evictBy (d : Drawing) : Policy → Option Page × Policy
  | random (page :: held) stream =>
    let draw := d.draw stream (page :: held).length
    ((page :: held)[draw.1]?, random (swapRemove (page :: held) draw.1) draw.2)
  | p => p.evict

/-- A random policy draws uniformly, and the others do not draw. -/
theorem evictBy_uniform (p : Policy) : p.evictBy .uniform = p.evict := by
  cases p with
  | fifo queue => rfl
  | clock queue => rfl
  | random held stream => cases held <;> rfl

/-- The policy with one more page, which stands last. -/
def takeIn (page : Page) : Policy → Policy
  | fifo queue => fifo (queue ++ [page])
  | clock queue => clock (queue ++ [page])
  | random held stream => random (held ++ [page]) stream

@[simp] theorem tracked_takeIn (p : Policy) (page : Page) :
    (p.takeIn page).tracked = p.tracked ++ [page] := by
  cases p <;> rfl

@[simp] theorem kind_takeIn (p : Policy) (page : Page) : (p.takeIn page).kind = p.kind := by
  cases p <;> rfl

theorem kind_evictBy (d : Drawing) (p : Policy) : (p.evictBy d).2.kind = p.kind := by
  cases p with
  | fifo queue => cases queue <;> rfl
  | clock queue => cases queue <;> rfl
  | random held stream => cases held <;> rfl

@[simp] theorem kind_evict (p : Policy) : p.evict.2.kind = p.kind := by
  rw [← evictBy_uniform]
  exact kind_evictBy .uniform p

/-- A page that is not held yet is taken in. -/
theorem insert_eq_takeIn {p : Policy} {page : Page} (h : page ∉ p.tracked) :
    p.insert page = .ok (p.takeIn page) := by
  have hc : p.tracked.contains page = false := by simpa using h
  simp only [insert, hc, Bool.false_eq_true, ite_false]
  cases p <;> rfl

/-- A policy that holds pages lets go of exactly one of them, whatever it draws. -/
theorem evictBy_perm (d : Drawing) {p : Policy} (h : p.tracked ≠ []) :
    ∃ victim rest, p.evictBy d = (some victim, rest) ∧ p.tracked.Perm (victim :: rest.tracked) := by
  cases p with
  | fifo queue =>
    cases queue with
    | nil => exact absurd rfl h
    | cons page queue => exact ⟨page, fifo queue, rfl, .refl _⟩
  | clock queue =>
    cases queue with
    | nil => exact absurd rfl h
    | cons page queue => exact ⟨page, clock queue, rfl, .refl _⟩
  | random held stream =>
    cases held with
    | nil => exact absurd rfl h
    | cons page held =>
      let draw := d.draw stream (page :: held).length
      have hd : draw.1 < (page :: held).length := d.lt (Nat.succ_pos held.length) stream
      refine ⟨(page :: held)[draw.1], random (swapRemove (page :: held) draw.1) draw.2, ?_,
        perm_swapRemove hd⟩
      change ((page :: held)[draw.1]?, _) = _
      rw [List.getElem?_eq_getElem hd]

/-- The same with the draws that the policy makes itself. -/
theorem evict_perm {p : Policy} (h : p.tracked ≠ []) :
    ∃ victim rest, p.evict = (some victim, rest) ∧ p.tracked.Perm (victim :: rest.tracked) := by
  rw [← evictBy_uniform]
  exact evictBy_perm .uniform h

/-- A policy without pages has no victim and stays as it is. -/
theorem evictBy_of_tracked_eq_nil (d : Drawing) {p : Policy} (h : p.tracked = []) :
    p.evictBy d = (none, p) := by
  cases p <;> (cases h; rfl)

theorem evict_of_tracked_eq_nil {p : Policy} (h : p.tracked = []) : p.evict = (none, p) := by
  rw [← evictBy_uniform]
  exact evictBy_of_tracked_eq_nil .uniform h

section Evict

variable {p rest : Policy} {victim : Page}

/-- The page that a policy lets go of was one of those it held, whatever it draws. -/
theorem perm_of_evictBy {d : Drawing} (h : p.evictBy d = (some victim, rest)) :
    p.tracked.Perm (victim :: rest.tracked) := by
  have hne : p.tracked ≠ [] := by
    intro hnil
    rw [evictBy_of_tracked_eq_nil d hnil] at h
    cases h
  obtain ⟨page, others, hevict, hperm⟩ := evictBy_perm d hne
  rw [hevict] at h
  cases h
  exact hperm

theorem perm_of_evict (h : p.evict = (some victim, rest)) : p.tracked.Perm (victim :: rest.tracked) := by
  rw [← evictBy_uniform] at h
  exact perm_of_evictBy h

theorem kind_of_evict (h : p.evict = (some victim, rest)) : rest.kind = p.kind := by
  have hkind := kind_evict p
  rwa [h] at hkind

/-- A policy that does not draw lets its first page go. -/
theorem tracked_of_evict (hkind : p.kind ≠ .random) (h : p.evict = (some victim, rest)) :
    p.tracked = victim :: rest.tracked := by
  cases p with
  | fifo queue | clock queue =>
    cases queue with
    | nil => cases h
    | cons page queue =>
      cases h
      rfl
  | random held stream => exact absurd rfl hkind

end Evict

end Policy

section Sweep

variable {σ ε : Type} (t : Tracker σ ε)

/-- A pass loses no page and takes in none. -/
theorem sweep_perm (queue : List Page) (s : σ) :
    ((sweep t queue s).kept ++ (sweep t queue s).revoked).Perm queue := by
  induction queue generalizing s with
  | nil => exact .refl _
  | cons page queue ih =>
    simp only [sweep]
    split
    · split
      · simp only [List.append_nil, List.Perm.refl]
      · exact List.perm_middle.trans ((ih _).cons page)
    · exact (ih s).cons page

/-- The pages that keep their place keep their order. -/
theorem sweep_kept_sublist (queue : List Page) (s : σ) : (sweep t queue s).kept.Sublist queue := by
  induction queue generalizing s with
  | nil => exact .slnil
  | cons page queue ih =>
    simp only [sweep]
    split
    · split
      · exact .refl _
      · exact (ih _).cons page
    · exact (ih s).cons_cons page

/-- The pages that move to the back do so in their order. -/
theorem sweep_revoked_sublist (queue : List Page) (s : σ) :
    (sweep t queue s).revoked.Sublist queue := by
  induction queue generalizing s with
  | nil => exact .slnil
  | cons page queue ih =>
    simp only [sweep]
    split
    · split
      · exact List.nil_sublist _
      · exact (ih _).cons_cons page
    · exact (ih s).cons page

/-- What every withdrawal from a used page keeps, a pass keeps. -/
theorem sweep_keeps {P : σ → Prop}
    (hstep : ∀ s page, P s → t.accessed s page = true → P (t.revoke s page))
    (queue : List Page) {s : σ} (hs : P s) : P (sweep t queue s).state := by
  induction queue generalizing s with
  | nil => exact hs
  | cons page queue ih =>
    simp only [sweep]
    split
    · rename_i ha
      split
      · exact hs
      · exact ih (hstep s page hs ha)
    · exact ih hs

/-- A pass is not refused if no withdrawal on its way is. -/
theorem sweep_refused {P : σ → Prop}
    (hstep : ∀ s page, P s → t.accessed s page = true → P (t.revoke s page))
    (hfree : ∀ s page, P s → t.refusal s page = none)
    (queue : List Page) {s : σ} (hs : P s) : (sweep t queue s).refused = none := by
  induction queue generalizing s with
  | nil => rfl
  | cons page queue ih =>
    simp only [sweep, hfree s page hs]
    split
    · rename_i ha
      exact ih (hstep s page hs ha)
    · exact ih hs

/-- Two passes over one queue that see the same pages as used, and that nobody refuses, withdraw
the same pages and end in states that still correspond. -/
theorem sweep_corresponds {σ' ε' : Type} (t' : Tracker σ' ε') {R : σ → σ' → Prop}
    (haccessed : ∀ s s' page, R s s' → t.accessed s page = t'.accessed s' page)
    (hfree : ∀ s s' page, R s s' → t.refusal s page = none ∧ t'.refusal s' page = none)
    (hstep : ∀ s s' page, R s s' → t.accessed s page = true →
      R (t.revoke s page) (t'.revoke s' page))
    (queue : List Page) {s : σ} {s' : σ'} (hs : R s s') :
    (sweep t queue s).kept = (sweep t' queue s').kept ∧
      (sweep t queue s).revoked = (sweep t' queue s').revoked ∧
      R (sweep t queue s).state (sweep t' queue s').state := by
  induction queue generalizing s s' with
  | nil => exact ⟨rfl, rfl, hs⟩
  | cons page queue ih =>
    have ha := haccessed s s' page hs
    obtain ⟨hf, hf'⟩ := hfree s s' page hs
    by_cases hu : t.accessed s page = true
    · obtain ⟨hk, hr, hR⟩ := ih (hstep s s' page hs hu)
      simp only [sweep, ← ha, hu, hf, hf', ite_true]
      exact ⟨hk, congrArg _ hr, hR⟩
    · obtain ⟨hk, hr, hR⟩ := ih hs
      simp only [sweep, ← ha, hu, Bool.false_eq_true, ite_false]
      exact ⟨congrArg _ hk, hr, hR⟩

end Sweep

namespace Policy

section Tick

variable {σ ε : Type} (t : Tracker σ ε)

/-- A tick reorders the pages that a policy holds. -/
theorem tick_perm (p : Policy) (s : σ) : (p.tick t s).policy.tracked.Perm p.tracked := by
  cases p with
  | fifo queue => exact .refl _
  | clock queue => exact sweep_perm t queue s
  | random held stream => exact .refl _

@[simp] theorem kind_tick (p : Policy) (s : σ) : (p.tick t s).policy.kind = p.kind := by
  cases p <;> rfl

/-- Only a clock takes notice of a tick. -/
theorem tick_of_ne_clock {p : Policy} (h : p.kind ≠ .clock) (s : σ) : p.tick t s = ⟨p, [], s, none⟩ := by
  cases p with
  | fifo queue => rfl
  | clock queue => exact absurd rfl h
  | random held stream => rfl

/-- What every withdrawal from a used page keeps, a tick keeps. -/
theorem tick_keeps {P : σ → Prop}
    (hstep : ∀ s page, P s → t.accessed s page = true → P (t.revoke s page))
    (p : Policy) {s : σ} (hs : P s) : P (p.tick t s).state := by
  cases p with
  | fifo queue => exact hs
  | clock queue => exact sweep_keeps t hstep queue hs
  | random held stream => exact hs

/-- A tick is not refused if no withdrawal on its way is. -/
theorem tick_refused {P : σ → Prop}
    (hstep : ∀ s page, P s → t.accessed s page = true → P (t.revoke s page))
    (hfree : ∀ s page, P s → t.refusal s page = none)
    (p : Policy) {s : σ} (hs : P s) : (p.tick t s).refused = none := by
  cases p with
  | fifo queue => rfl
  | clock queue => exact sweep_refused t hstep hfree queue hs
  | random held stream => rfl

/-- Two ticks that see the same pages as used, and that nobody refuses, leave the same policy and
states that still correspond. -/
theorem tick_corresponds {σ' ε' : Type} (t' : Tracker σ' ε') {R : σ → σ' → Prop}
    (haccessed : ∀ s s' page, R s s' → t.accessed s page = t'.accessed s' page)
    (hfree : ∀ s s' page, R s s' → t.refusal s page = none ∧ t'.refusal s' page = none)
    (hstep : ∀ s s' page, R s s' → t.accessed s page = true →
      R (t.revoke s page) (t'.revoke s' page))
    (p : Policy) {s : σ} {s' : σ'} (hs : R s s') :
    (p.tick t s).policy = (p.tick t' s').policy ∧ R (p.tick t s).state (p.tick t' s').state := by
  cases p with
  | fifo queue => exact ⟨rfl, hs⟩
  | clock queue =>
    obtain ⟨hkept, hrevoked, hR⟩ := sweep_corresponds t t' haccessed hfree hstep queue hs
    refine ⟨?_, hR⟩
    simp only [tick, hkept, hrevoked]
  | random held stream => exact ⟨rfl, hs⟩

end Tick

end Policy

end DemandPaging
