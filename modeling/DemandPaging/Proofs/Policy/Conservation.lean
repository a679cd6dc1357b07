import DemandPaging.Proofs.Policy.Seniority

/-!
# No page is lost and none is made up

What a policy holds can be read off the notices that it was given and the pages that left: it holds
the pages that were loaded and have not left since, each of them once. A tick moves pages about, and
a refusal may cut it short while some of them have moved and others have not, but no page gets lost
on the way. An eviction takes out one page, whatever number was drawn for it and in whatever way the
gap was closed. So evictions in a row hand out each page once, and then nothing.
-/

namespace DemandPaging.Policy

variable {start p : Policy} {draws : Nat → Drawing} {history earlier : List Notice} {x : Notice}
  {page : Page}

/-- The policy after a notice, where it draws as `d` says. -/
def toldBy (d : Drawing) (p : Policy) : Notice → Except Panic Policy
  | .evict => .ok (p.evictBy d).2
  | x => p.told x

/-- The policy after a history of notices, of which the last one stands first. For the notice that
comes after `n` others it draws as `draws n` says. -/
def afterBy (draws : Nat → Drawing) (start : Policy) : List Notice → Except Panic Policy
  | [] => .ok start
  | x :: earlier => do (← start.afterBy draws earlier).toldBy (draws earlier.length) x

/-- Every page is loaded at a moment when the policy does not hold it. -/
def LoadsAbsent (draws : Nat → Drawing) (start : Policy) : List Notice → Prop
  | [] => True
  | .loaded page :: earlier =>
    start.LoadsAbsent draws earlier ∧
      ∀ p, start.afterBy draws earlier = .ok p → page ∉ p.tracked
  | .tick _ _ :: earlier => start.LoadsAbsent draws earlier
  | .evict :: earlier => start.LoadsAbsent draws earlier

/-- The page that leaves if an eviction follows the history. -/
def nextVictim (draws : Nat → Drawing) (start : Policy) (history : List Notice) : Option Page :=
  match start.afterBy draws history with
  | .ok p => (p.evictBy (draws history.length)).1
  | .error _ => none

/-- The page was loaded and has not left since. -/
def remains (draws : Nat → Drawing) (start : Policy) (page : Page) : List Notice → Bool
  | [] => false
  | .loaded q :: earlier => q = page || start.remains draws page earlier
  | .tick _ _ :: earlier => start.remains draws page earlier
  | .evict :: earlier =>
    start.nextVictim draws earlier ≠ some page && start.remains draws page earlier

/-- What evictions in a row hand out, one for each way of drawing. -/
def victims : List Drawing → Policy → List (Option Page)
  | [], _ => []
  | d :: ds, p => (p.evictBy d).1 :: victims ds (p.evictBy d).2

/-! ## Single notices -/

/-- A history in which the policy draws for itself. -/
theorem afterBy_uniform (start : Policy) (history : List Notice) :
    start.afterBy (fun _ => .uniform) history = start.after history := by
  induction history with
  | nil => rfl
  | cons x earlier ih =>
    rw [afterBy, after, ih]
    congr 1
    funext p
    cases x with
    | loaded page => rfl
    | tick t s => rfl
    | evict => simp [toldBy, told, evictBy_uniform]

theorem afterBy_cons (hp : start.afterBy draws earlier = .ok p) (x : Notice) :
    start.afterBy draws (x :: earlier) = p.toldBy (draws earlier.length) x := by
  rw [afterBy, hp]
  rfl

/-- The page that leaves, seen from the policy. -/
theorem nextVictim_eq (hp : start.afterBy draws history = .ok p) :
    start.nextVictim draws history = (p.evictBy (draws history.length)).1 := by
  simp only [nextVictim, hp]

/-! ## Histories -/

/-- The policy holds what remains of the history. -/
structure Conserves (draws : Nat → Drawing) (start : Policy) (history : List Notice) (p : Policy) :
    Prop where
  /-- No page is held twice. -/
  nodup : p.tracked.Nodup
  /-- The pages that remain are held, and no others. -/
  mem_tracked : ∀ page, page ∈ p.tracked ↔ start.remains draws page history = true

namespace Conserves

/-- A page that is loaded remains. -/
theorem loaded (h : Conserves draws start earlier p) (hpage : page ∉ p.tracked) :
    Conserves draws start (.loaded page :: earlier) (p.takeIn page) := by
  constructor
  · rw [tracked_takeIn, (List.perm_append_singleton page _).nodup_iff, List.nodup_cons]
    exact ⟨hpage, h.nodup⟩
  · intro q
    simp only [tracked_takeIn, List.mem_append, List.mem_singleton, h.mem_tracked, remains,
      Bool.or_eq_true, decide_eq_true_eq]
    rw [or_comm, eq_comm]

/-- A tick reorders what remains, however far it came. -/
theorem tick (h : Conserves draws start earlier p) {σ ε : Type} (t : Tracker σ ε) (s : σ) :
    Conserves draws start (.tick t s :: earlier) (p.tick t s).policy := by
  have hperm := tick_perm t p s
  constructor
  · exact hperm.nodup_iff.mpr h.nodup
  · intro q
    rw [hperm.mem_iff, h.mem_tracked]
    rfl

/-- The page that leaves is the only one that does not remain. -/
theorem evict (h : Conserves draws start earlier p) (hp : start.afterBy draws earlier = .ok p) :
    Conserves draws start (.evict :: earlier) (p.evictBy (draws earlier.length)).2 := by
  by_cases hnil : p.tracked = []
  · have hnone := evictBy_of_tracked_eq_nil (draws earlier.length) hnil
    rw [hnone]
    refine ⟨h.nodup, ?_⟩
    intro q
    simp [remains, nextVictim_eq hp, hnone, h.mem_tracked]
  · obtain ⟨victim, rest, hevict, hperm⟩ := evictBy_perm (draws earlier.length) hnil
    obtain ⟨hvictim, hnodup⟩ := List.nodup_cons.mp (hperm.nodup_iff.mp h.nodup)
    rw [hevict]
    refine ⟨hnodup, ?_⟩
    intro q
    have hrest : q ∈ p.tracked ↔ q = victim ∨ q ∈ rest.tracked := by
      rw [hperm.mem_iff, List.mem_cons]
    simp only [remains, nextVictim_eq hp, hevict, ← h.mem_tracked, hrest, Bool.and_eq_true,
      decide_eq_true_eq, ne_eq, Option.some.injEq]
    constructor
    · intro hq
      refine ⟨?_, Or.inr hq⟩
      rintro rfl
      exact hvictim hq
    · rintro ⟨hne, rfl | hq⟩
      · exact absurd rfl hne
      · exact hq

/-- A history of loads that are all admissible runs to its end, and the policy holds what remains of
it. -/
theorem of_loadsAbsent (hstart : start.tracked = []) (hloads : start.LoadsAbsent draws history) :
    ∃ p, start.afterBy draws history = .ok p ∧ Conserves draws start history p := by
  induction history with
  | nil =>
    refine ⟨start, rfl, ?_, ?_⟩
    · rw [hstart]
      exact List.nodup_nil
    · simp [hstart, remains]
  | cons x earlier ih =>
    cases x with
    | loaded page =>
      obtain ⟨p, hp, h⟩ := ih hloads.1
      have hpage := hloads.2 p hp
      refine ⟨p.takeIn page, ?_, h.loaded hpage⟩
      rw [afterBy_cons hp]
      exact insert_eq_takeIn hpage
    | tick t s =>
      obtain ⟨p, hp, h⟩ := ih hloads
      exact ⟨_, afterBy_cons hp _, h.tick t s⟩
    | evict =>
      obtain ⟨p, hp, h⟩ := ih hloads
      exact ⟨_, afterBy_cons hp _, h.evict hp⟩

/-- As many pages are held as remain. -/
theorem size_eq (h : Conserves draws start history p) :
    p.size = (Page.all.filter fun page => start.remains draws page history).length := by
  apply List.Perm.length_eq
  rw [List.perm_ext_iff_of_nodup h.nodup (Page.nodup_all.filter _)]
  intro page
  simp [h.mem_tracked]

/-- A page leaves exactly if one is held, and it is one that was held and is not any more. -/
theorem evictBy (h : Conserves draws start history p) (d : Drawing) :
    ((p.evictBy d).1.isSome = true ↔ p.tracked ≠ []) ∧
      ∀ victim, (p.evictBy d).1 = some victim →
        victim ∈ p.tracked ∧ victim ∉ (p.evictBy d).2.tracked := by
  by_cases hnil : p.tracked = []
  · simp [evictBy_of_tracked_eq_nil d hnil, hnil]
  · obtain ⟨victim, rest, hevict, hperm⟩ := evictBy_perm d hnil
    obtain ⟨hvictim, -⟩ := List.nodup_cons.mp (hperm.nodup_iff.mp h.nodup)
    simp [hevict, hnil, hvictim, hperm.mem_iff]

end Conserves

/-- Evictions in a row empty a policy: they hand out its pages, each as often as it is held, and
then nothing. -/
theorem exists_victims_eq (p : Policy) {ds : List Drawing} (hds : p.size ≤ ds.length) :
    ∃ pages : List Page, pages.Perm p.tracked ∧
      p.victims ds = pages.map some ++ List.replicate (ds.length - p.size) none := by
  induction ds generalizing p with
  | nil =>
    have hnil : p.tracked = [] := List.length_eq_zero_iff.mp (Nat.le_zero.mp hds)
    exact ⟨[], by rw [hnil], by simp [victims]⟩
  | cons d ds ih =>
    by_cases hnil : p.tracked = []
    · have hsize : p.size = 0 := by simp [size, hnil]
      obtain ⟨pages, hpages, hvictims⟩ := ih p (by omega)
      rw [hnil, List.perm_nil] at hpages
      refine ⟨[], by rw [hnil], ?_⟩
      simp [victims, evictBy_of_tracked_eq_nil d hnil, hvictims, hpages, hsize,
        List.replicate_succ]
    · obtain ⟨victim, rest, hevict, hperm⟩ := evictBy_perm d hnil
      have hsize : p.size = rest.size + 1 := hperm.length_eq
      rw [hsize, List.length_cons] at hds
      obtain ⟨pages, hpages, hvictims⟩ := ih rest (by omega)
      refine ⟨victim :: pages, (hpages.cons victim).trans hperm.symm, ?_⟩
      simp [victims, hevict, hvictims, hsize]

/-- A policy of any kind that held nothing was told of loads of pages that it did not hold, of
ticks that see its pages in any way and are refused anywhere, and of evictions, for which numbers
below the bound were drawn in any way. Then it took every notice, and it holds the pages that were
loaded and have not left since, each of them once; its size is their number. A page leaves exactly
if one is held, it was held before and is not held afterwards. Evictions in a row hand out every
page that is held exactly once, and then nothing. Where all the draws are the policy's own, it is the
policy after this history, and what leaves is what it evicts. -/
theorem mem_tracked_iff_remains_of_loadsAbsent (hstart : start.tracked = [])
    (hloads : start.LoadsAbsent draws history) :
    ∃ p, start.afterBy draws history = .ok p ∧ p.tracked.Nodup ∧
      (∀ page, page ∈ p.tracked ↔ start.remains draws page history = true) ∧
      p.size = (Page.all.filter fun page => start.remains draws page history).length ∧
      (∀ d : Drawing, ((p.evictBy d).1.isSome = true ↔ p.tracked ≠ []) ∧
        ∀ victim, (p.evictBy d).1 = some victim →
          victim ∈ p.tracked ∧ victim ∉ (p.evictBy d).2.tracked) ∧
      (∀ ds : List Drawing, p.size ≤ ds.length → ∃ pages : List Page, pages.Perm p.tracked ∧
        p.victims ds = pages.map some ++ List.replicate (ds.length - p.size) none) ∧
      ((∀ n, draws n = .uniform) → start.after history = .ok p) ∧ p.evict = p.evictBy .uniform := by
  obtain ⟨p, hp, h⟩ := Conserves.of_loadsAbsent hstart hloads
  refine ⟨p, hp, h.nodup, h.mem_tracked, h.size_eq, h.evictBy, fun ds hds => p.exists_victims_eq hds,
    fun hown => ?_, (evictBy_uniform p).symm⟩
  obtain rfl : draws = fun _ => .uniform := funext hown
  exact (afterBy_uniform start history).symm.trans hp

/-- A random policy whose draws always name the first page, which page 3 replaces. -/
theorem mem_tracked_iff_remains_of_loadsAbsent_first_draw :
    ∃ (stream : Random.Stream) (first : Drawing) (history : List Notice) (p : Policy),
      history = [.evict, .tick (Observed.tracker [3]) [0, 2, 3], .loaded 3, .loaded 2, .loaded 1,
        .loaded 0] ∧
      (random [] stream).LoadsAbsent (fun _ => first) history ∧
      (random [] stream).afterBy (fun _ => first) history = .ok p ∧ p.tracked = [3, 1, 2] ∧
      (∀ page, page ∈ p.tracked ↔ (random [] stream).remains (fun _ => first) page history = true) ∧
      ∃ pages : List Page, pages.Perm [3, 1, 2] ∧
        p.victims [first, first, first, first] = pages.map some ++ [none] := by
  let first : Drawing := ⟨fun stream _ => (0, stream), fun h _ => h⟩
  let stream := Random.Stream.ofSeed 1
  have hloads : (random [] stream).LoadsAbsent (fun _ => first)
      [.evict, .tick (Observed.tracker [3]) [0, 2, 3], .loaded 3, .loaded 2, .loaded 1,
        .loaded 0] := by
    refine ⟨⟨⟨⟨trivial, ?_⟩, ?_⟩, ?_⟩, ?_⟩ <;>
      · intro p hp
        cases hp
        decide
  obtain ⟨p, hp, -, hmem, -, -, hvictims, -⟩ := mem_tracked_iff_remains_of_loadsAbsent rfl hloads
  obtain rfl : random [3, 1, 2] stream = p := Except.ok.inj hp
  exact ⟨stream, first, _, _, rfl, hloads, hp, rfl, hmem,
    hvictims [first, first, first, first] (by decide)⟩

end DemandPaging.Policy
