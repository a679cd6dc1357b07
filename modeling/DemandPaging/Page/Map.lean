import DemandPaging.Page

/-!
# Tables indexed by page

A `PageMap` holds one value for every page. It is seen only through `get`;
the laws below say what each operation does to that view.
-/

namespace DemandPaging

/-- One value for every page of the range. -/
structure PageMap (α : Type) where
  /-- The values, in page order. -/
  cells : Vector α pageCount

namespace PageMap

variable {α : Type}

/-- The table that holds `a` everywhere. -/
def const (a : α) : PageMap α := ⟨Vector.replicate pageCount a⟩

/-- The value of page `p`. -/
def get (m : PageMap α) (p : Page) : α := m.cells[p.val]

/-- Replace the value of page `p`. -/
def set (m : PageMap α) (p : Page) (a : α) : PageMap α := ⟨m.cells.set p.val a⟩

/-- Apply `f` to the value of page `p`. -/
def modify (m : PageMap α) (p : Page) (f : α → α) : PageMap α :=
  ⟨⟨m.cells.toArray.modify p.val f, by simp⟩⟩

@[simp] theorem get_const (a : α) (p : Page) : (const a).get p = a := by
  simp [const, get]

theorem get_set (m : PageMap α) (p q : Page) (a : α) :
    (m.set p a).get q = if p = q then a else m.get q := by
  simp [set, get, Vector.getElem_set, Fin.ext_iff]

theorem get_modify (m : PageMap α) (p q : Page) (f : α → α) :
    (m.modify p f).get q = if p = q then f (m.get q) else m.get q := by
  simp [modify, get, Array.getElem_modify, Fin.ext_iff]

/-- The pages whose value satisfies `f`, in ascending order. -/
def pagesWhere (m : PageMap α) (f : α → Bool) : List Page :=
  Page.all.filter fun p => f (m.get p)

theorem mem_pagesWhere {m : PageMap α} {f : α → Bool} {p : Page} :
    p ∈ m.pagesWhere f ↔ f (m.get p) = true := by
  simp [pagesWhere]

theorem nodup_pagesWhere (m : PageMap α) (f : α → Bool) : (m.pagesWhere f).Nodup :=
  Page.nodup_all.filter _

theorem pairwise_lt_pagesWhere (m : PageMap α) (f : α → Bool) :
    (m.pagesWhere f).Pairwise (· < ·) :=
  Page.pairwise_lt_all.filter _

/-- Two tables that differ at most at page `p` have as many pages whose value satisfies `f`, up to page `p`. -/
theorem length_pagesWhere_of_agree {m n : PageMap α} {p : Page} (f : α → Bool)
    (h : ∀ q, q ≠ p → f (n.get q) = f (m.get q)) :
    (n.pagesWhere f).length + (f (m.get p)).toNat =
      (m.pagesWhere f).length + (f (n.get p)).toNat := by
  have hperm := List.perm_cons_erase (Page.mem_all p)
  have hrest : (Page.all.erase p).filter (fun q => f (n.get q)) =
      (Page.all.erase p).filter fun q => f (m.get q) :=
    List.filter_congr fun q hq => h q (Page.nodup_all.mem_erase_iff.mp hq).1
  have hcount (k : Page → Bool) :
      (Page.all.filter k).length = (k p).toNat + ((Page.all.erase p).filter k).length := by
    rw [(hperm.filter k).length_eq, List.filter_cons]
    cases k p with
    | true => exact Nat.add_comm ..
    | false => exact (Nat.zero_add _).symm
  rw [pagesWhere, pagesWhere, hcount, hcount, hrest]
  omega

end PageMap

end DemandPaging
