import DemandPaging.Layout

/-!
# Page numbers

A page is named by its position in the managed range. The type admits only
pages that exist, so every table below is total.
-/

namespace DemandPaging

/-- The number of a page in the managed range. -/
abbrev Page := Fin pageCount

/-- The position of a byte inside its page. -/
abbrev Offset := Fin pageSize

namespace Page

/-- The page with number `n`, if the range has one. -/
def ofNat? (n : Nat) : Option Page :=
  if h : n < pageCount then some ⟨n, h⟩ else none

/-- The page at the start of the range. -/
def first : Page := ⟨0, by decide⟩

/-- A page as a field value. -/
def fieldText (p : Page) : String := "Page(" ++ toString p.val ++ ")"

/-- Every page, in ascending order. -/
def all : List Page := List.finRange pageCount

theorem ofNat?_eq_some_iff {n : Nat} {p : Page} : ofNat? n = some p ↔ p.val = n := by
  unfold ofNat?
  split
  · simp only [Option.some.injEq, Fin.ext_iff]
    exact ⟨fun h => h.symm, fun h => h.symm⟩
  · simp only [reduceCtorEq, false_iff]
    intro h
    exact absurd (h ▸ p.isLt) ‹_›

@[simp] theorem mem_all (p : Page) : p ∈ all := List.mem_finRange p

theorem nodup_all : all.Nodup := List.nodup_finRange pageCount

theorem pairwise_lt_all : all.Pairwise (· < ·) := List.pairwise_lt_finRange pageCount

end Page

namespace Offset

/-- The offset `n`, if a page has such a byte. -/
def ofNat? (n : Nat) : Option Offset :=
  if h : n < pageSize then some ⟨n, h⟩ else none

end Offset

end DemandPaging
