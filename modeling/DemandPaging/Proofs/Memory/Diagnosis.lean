import DemandPaging.Memory
import DemandPaging.Proofs.Ensures
import Mathlib.Data.Set.Card
import Mathlib.Order.SymmDiff

/-!
# What the consistency check finds

The check reads lists, stored bits and a stored number. Here its rules are stated of sets of pages:
the resident ones and the ones that the policy holds. For every state, reachable or not, the check
succeeds exactly if all rules are kept, and otherwise stops with the first rule that is broken and,
where the rule is about pages, with the least page that breaks it.
-/

namespace DemandPaging

open scoped symmDiff

/-! ## The least page of a kind -/

/-- What a search from the start of the range finds is the least page of its kind. -/
theorem Page.isLeast_of_find?_all {f : Page → Bool} {p : Page} (h : all.find? f = some p) :
    IsLeast {q | f q = true} p := by
  obtain ⟨hp, before, after, hall, hbefore⟩ := List.find?_eq_some_iff_append.mp h
  refine ⟨hp, fun q hq => ?_⟩
  have hsorted : (p :: after).Pairwise (· < ·) :=
    (List.pairwise_append.mp (hall ▸ pairwise_lt_all)).2.1
  rcases List.mem_append.mp (hall ▸ mem_all q) with hq' | hq'
  · have hnot := hbefore q hq'
    rw [show f q = true from hq] at hnot
    exact absurd hnot Bool.false_ne_true
  · rcases List.mem_cons.mp hq' with rfl | hq'
    · exact le_rfl
    · exact ((List.pairwise_cons.mp hsorted).1 q hq').le

theorem Page.find?_all_eq_some_iff {f : Page → Bool} {p : Page} :
    all.find? f = some p ↔ IsLeast {q | f q = true} p := by
  refine ⟨isLeast_of_find?_all, fun h => ?_⟩
  obtain ⟨q, hq⟩ : ∃ q, all.find? f = some q := by
    rw [← Option.isSome_iff_exists, List.find?_isSome]
    exact ⟨p, mem_all p, h.1⟩
  rw [hq, (isLeast_of_find?_all hq).unique h]

theorem Page.find?_all_eq_none_iff {f : Page → Bool} :
    all.find? f = none ↔ {p | f p = true} = ∅ := by
  simp only [List.find?_eq_none, mem_all, true_implies, Set.eq_empty_iff_forall_notMem,
    Set.mem_ofPred_eq]

/-- Every kind that has a page has a least one. -/
theorem Page.exists_isLeast {S : Set Page} (h : S.Nonempty) : ∃ p, IsLeast S p := by
  obtain ⟨p, hp, hmin⟩ := wellFounded_lt.has_min S h
  exact ⟨p, hp, fun q hq => not_lt.mp (hmin q hq)⟩

/-- The entry records neither residence nor use, neither a write nor any rights. -/
structure Entry.Unset (e : Entry) : Prop where
  resident : e.resident = false
  accessed : e.accessed = false
  dirty : e.dirty = false
  permission : e.permission = .noAccess

theorem Entry.isConsistent_iff_unset {e : Entry} : e.isConsistent = true ↔ e.resident = true ∨ e.Unset := by
  unfold isConsistent
  cases hr : e.resident with
  | true => simp
  | false =>
    simp only [Bool.false_or, Bool.and_eq_true, Bool.not_eq_true', beq_iff_eq, Bool.false_eq_true,
      false_or]
    exact ⟨fun ⟨⟨ha, hd⟩, hp⟩ => ⟨hr, ha, hd, hp⟩, fun h => ⟨⟨h.accessed, h.dirty⟩, h.permission⟩⟩

namespace Memory

/-! ## The rules -/

/-- The resident pages. -/
def residents (s : Memory) : Set Page := {p | (s.entry p).resident = true}

/-- The pages that the policy holds. -/
def held (s : Memory) : Set Page := {p | p ∈ s.policy.tracked}

/-- The pages that are not resident although something is recorded of them. -/
def untidy (s : Memory) : Set Page := {p | p ∉ s.residents ∧ ¬ (s.entry p).Unset}

/-- All rules are kept. -/
structure Consistent (s : Memory) : Prop where
  /-- The stored number of resident pages keeps to the budget. -/
  budget : s.table.residentCount ≤ s.budget
  /-- Nothing is recorded of a page that is not resident. -/
  entries : ∀ p ∉ s.residents, (s.entry p).Unset
  /-- The stored number is the number of resident pages. -/
  count : s.table.residentCount = s.residents.ncard
  /-- The policy holds the resident pages and no others. -/
  policy : s.held = s.residents

/-- The first rule that is broken, with the page to name. -/
inductive Blames (s : Memory) : PagerError → Prop where
  | budget (hbudget : s.budget < s.table.residentCount) : s.Blames (.invariant .first .budgetExceeded)
  | entry {p : Page} (hbudget : s.table.residentCount ≤ s.budget) (hp : IsLeast s.untidy p) :
      s.Blames (.invariant p .entryInconsistent)
  | count (hbudget : s.table.residentCount ≤ s.budget) (hentries : s.untidy = ∅)
      (hcount : s.table.residentCount ≠ s.residents.ncard) :
      s.Blames (.invariant .first .countDisagrees)
  | policy {p : Page} (hbudget : s.table.residentCount ≤ s.budget) (hentries : s.untidy = ∅)
      (hcount : s.table.residentCount = s.residents.ncard) (hp : IsLeast (s.held ∆ s.residents) p) :
      s.Blames (.invariant p .policyDisagrees)

variable {s : Memory} {p : Page} {e : PagerError}

theorem untidy_eq_empty_iff : s.untidy = ∅ ↔ ∀ p ∉ s.residents, (s.entry p).Unset := by
  simp only [Set.eq_empty_iff_forall_notMem, untidy, Set.mem_ofPred_eq, not_and, not_not]

/-- Where a rule is broken, one of the rules is the first. -/
theorem consistent_or_exists_blames (s : Memory) : s.Consistent ∨ ∃ e, s.Blames e := by
  rcases Nat.lt_or_ge s.budget s.table.residentCount with hbudget | hbudget
  · exact .inr ⟨_, .budget hbudget⟩
  rcases s.untidy.eq_empty_or_nonempty with huntidy | hsome
  swap
  · obtain ⟨p, hp⟩ := Page.exists_isLeast hsome
    exact .inr ⟨_, .entry hbudget hp⟩
  by_cases hcount : s.table.residentCount = s.residents.ncard
  swap
  · exact .inr ⟨_, .count hbudget huntidy hcount⟩
  rcases (s.held ∆ s.residents).eq_empty_or_nonempty with hsame | hsome
  · exact .inl ⟨hbudget, untidy_eq_empty_iff.mp huntidy, hcount, symmDiff_eq_bot.mp hsame⟩
  · obtain ⟨p, hp⟩ := Page.exists_isLeast hsome
    exact .inr ⟨_, .policy hbudget huntidy hcount hp⟩

/-! ## The searches of the check -/

theorem setOf_not_isConsistent (s : Memory) :
    {p | (!(s.entry p).isConsistent) = true} = s.untidy := by
  ext p
  simp only [Set.mem_ofPred_eq, Bool.not_eq_true', ← Bool.not_eq_true, Entry.isConsistent_iff_unset,
    not_or, untidy, residents]

theorem setOf_contains_ne_resident (s : Memory) :
    {p | (s.policy.tracked.contains p != (s.entry p).resident) = true} = s.held ∆ s.residents := by
  ext p
  have hheld : p ∈ s.held ↔ s.policy.tracked.contains p = true := List.contains_iff_mem.symm
  have hresident : p ∈ s.residents ↔ (s.entry p).resident = true := Iff.rfl
  rw [Set.mem_symmDiff, hheld, hresident, Set.mem_ofPred_eq]
  cases s.policy.tracked.contains p <;> cases (s.entry p).resident <;> decide

/-- The resident pages are counted by their list. -/
theorem ncard_residents (s : Memory) : s.residents.ncard = s.table.residentPages.length := by
  have hset : s.residents = (s.table.residentPages.toFinset : Set Page) := by
    ext p
    rw [List.coe_toFinset]
    exact PageMap.mem_pagesWhere.symm
  have hnodup : s.table.residentPages.Nodup := PageMap.nodup_pagesWhere _ _
  rw [hset, Set.ncard_coe_finset, List.toFinset_card_of_nodup hnodup]

/-- Where nothing is untidy, the table is consistent if its stored number is right. -/
theorem isConsistent_table_eq (h : s.untidy = ∅) :
    s.table.isConsistent = decide (s.table.residentCount = s.residents.ncard) := by
  have hentries : (Page.all.all fun p => (s.table.entry p).isConsistent) = true := by
    rw [List.all_eq_true]
    intro p _
    refine Entry.isConsistent_iff_unset.mpr ?_
    by_cases hp : p ∈ s.residents
    · exact .inl hp
    · exact .inr (untidy_eq_empty_iff.mp h p hp)
  rw [PageTable.isConsistent, hentries, Bool.true_and, ncard_residents, beq_eq_decide]

theorem find?_not_isConsistent_eq_some (h : IsLeast s.untidy p) :
    (Page.all.find? fun p => !(s.entry p).isConsistent) = some p :=
  Page.find?_all_eq_some_iff.mpr (setOf_not_isConsistent s ▸ h)

theorem find?_not_isConsistent_eq_none (h : s.untidy = ∅) :
    (Page.all.find? fun p => !(s.entry p).isConsistent) = none :=
  Page.find?_all_eq_none_iff.mpr (setOf_not_isConsistent s ▸ h)

/-! ## The outcome of the check -/

theorem Consistent.violation?_eq_none (h : s.Consistent) : s.violation? = none := by
  have huntidy := untidy_eq_empty_iff.mpr h.entries
  have hpolicy : (Page.all.find? fun p =>
      s.policy.tracked.contains p != (s.entry p).resident) = none := by
    rw [Page.find?_all_eq_none_iff, setOf_contains_ne_resident, h.policy, symmDiff_self]
    rfl
  have htable : s.table.isConsistent = true := by
    rw [isConsistent_table_eq huntidy, decide_eq_true h.count]
  simp only [violation?, Nat.not_lt.mpr h.budget, find?_not_isConsistent_eq_none huntidy, htable,
    hpolicy, Bool.not_true, Bool.false_eq_true, if_false]

theorem Blames.violation?_eq_some (h : s.Blames e) : s.violation? = some e := by
  cases h with
  | budget hbudget => simp only [violation?, hbudget, if_true]
  | entry hbudget hp =>
    simp only [violation?, Nat.not_lt.mpr hbudget, find?_not_isConsistent_eq_some hp, if_false]
  | count hbudget hentries hcount =>
    have htable : s.table.isConsistent = false := by
      rw [isConsistent_table_eq hentries, decide_eq_false hcount]
    simp only [violation?, Nat.not_lt.mpr hbudget, find?_not_isConsistent_eq_none hentries, htable,
      Bool.not_false, if_true, if_false]
  | policy hbudget hentries hcount hp =>
    have htable : s.table.isConsistent = true := by
      rw [isConsistent_table_eq hentries, decide_eq_true hcount]
    have hpolicy := Page.find?_all_eq_some_iff.mpr (setOf_contains_ne_resident s ▸ hp)
    simp only [violation?, Nat.not_lt.mpr hbudget, find?_not_isConsistent_eq_none hentries, htable,
      hpolicy, Bool.not_true, Bool.false_eq_true, if_false]

theorem violation?_eq_none_iff : s.violation? = none ↔ s.Consistent := by
  refine ⟨fun hnone => ?_, Consistent.violation?_eq_none⟩
  rcases consistent_or_exists_blames s with h | ⟨e, h⟩
  · exact h
  · exact absurd (hnone.symm.trans h.violation?_eq_some) (Option.some_ne_none e).symm

theorem violation?_eq_some_iff : s.violation? = some e ↔ s.Blames e := by
  refine ⟨fun hsome => ?_, Blames.violation?_eq_some⟩
  rcases consistent_or_exists_blames s with h | ⟨e', h⟩
  · exact absurd (hsome.symm.trans h.violation?_eq_none) (Option.some_ne_none e)
  · obtain rfl := Option.some.inj (hsome.symm.trans h.violation?_eq_some)
    exact h

/-- For every state whatsoever the check either succeeds, exactly if all rules are kept, or stops
with the first rule that is broken and the least page that breaks it. It changes nothing. -/
theorem check_diagnosis (s : Memory) :
    (check.Yields s () s #[] ↔ s.Consistent) ∧
      (∀ e, check.Rejects s (.error e) ↔ s.Blames e) ∧
      (s.Consistent ∨ ∃ e, s.Blames e) :=
  ⟨(Step.yields_query_refuse_iff _).trans violation?_eq_none_iff,
    fun _ => (Step.rejects_query_refuse_iff _).trans violation?_eq_some_iff,
    s.consistent_or_exists_blames⟩

end Memory

end DemandPaging
