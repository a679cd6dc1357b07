import DemandPaging.Policy.Replay
import DemandPaging.Proofs.Policy.Tracked

/-!
# Replays of visits

A visit is an access to a page or a tick. A replay follows visits in a row,
with ticks anywhere between the accesses. An access settles its page: the page
is resident and used afterwards, so the same access once more changes nothing.
-/

namespace DemandPaging

/-- What a replay is told about. -/
inductive Visit where
  /-- A page is accessed. -/
  | access (p : Page)
  /-- The timer expires. -/
  | tick
  deriving DecidableEq, Repr

namespace Replay

/-- The replay after a visit. -/
def visit (r : Replay) : Visit → Except Panic Replay
  | .access p => r.access p
  | .tick => .ok r.tick

/-- The replay after visits in a row. -/
def follow (r : Replay) : List Visit → Except Panic Replay
  | [] => .ok r
  | v :: visits => do (← r.visit v).follow visits

/-- The pages that a visit loads: the page that is accessed, if it is not resident. -/
def missing (r : Replay) : Visit → Array Page
  | .access p => if p ∈ r.resident then #[] else #[p]
  | .tick => #[]

/-- The pages that visits in a row load, in order. -/
def loadedPages (r : Replay) : List Visit → Array Page
  | [] => #[]
  | v :: visits =>
    r.missing v ++
      match r.visit v with
      | .ok r => r.loadedPages visits
      | .error _ => #[]

variable {r r' : Replay} {p q : Page}

theorem mem_accessed_touch : q ∈ (r.touch p).accessed ↔ q = p ∨ q ∈ r.accessed := by
  unfold touch
  cases hc : r.accessed.contains p with
  | true =>
    have hp : p ∈ r.accessed := List.contains_iff_mem.mp hc
    simp only [ite_true]
    constructor
    · exact Or.inr
    · rintro (rfl | hq)
      · exact hp
      · exact hq
  | false => simp only [Bool.false_eq_true, ite_false, List.mem_cons]

theorem touch_of_mem (h : p ∈ r.accessed) : r.touch p = r := by
  have hc : r.accessed.contains p = true := List.contains_iff_mem.mpr h
  simp only [touch, hc, ite_true]

/-- An access to a resident page only marks it as used. -/
theorem access_of_mem (h : p ∈ r.resident) : r.access p = .ok (r.touch p) := by
  have hc : r.resident.contains p = true := List.contains_iff_mem.mpr h
  simp only [access, load, hc, ite_true]
  rfl

/-- An access to another page makes room for it and loads it. -/
theorem access_of_not_mem (h : p ∉ r.resident) (hfree : p ∉ r.makeRoom.policy.tracked) :
    r.access p = .ok ({ r.makeRoom with
      policy := r.makeRoom.policy.takeIn p
      resident := p :: r.makeRoom.resident
      loads := r.makeRoom.loads + 1 }.touch p) := by
  have hc : ¬ r.resident.contains p = true := fun hc => h (List.contains_iff_mem.mp hc)
  simp only [access, load, if_neg hc, Policy.insert_eq_takeIn hfree]
  rfl

/-- An access that repeats the one before it changes nothing. -/
theorem access_again (h : p ∈ r.resident) (ha : p ∈ r.accessed) : r.access p = .ok r := by
  rw [access_of_mem h, touch_of_mem ha]

end Replay

end DemandPaging
