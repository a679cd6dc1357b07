import DemandPaging.Address.Range

/-!
# Addresses and pages

A range cuts its addresses into pages, one behind the other. The bounds that a range carries keep
every sum inside the machine words, so an address belongs to a page exactly if it lies in the bytes
from the first one of the page on. Because the range starts at a page boundary, the division that
finds the page and the masks that split an address agree: the page starts at the address with its
low bits cleared, and the low bits are the position inside it.
-/

namespace DemandPaging

namespace Address

/-- A mask and its complement split a word. -/
private theorem toNat_and_not_add_and (x mask : UInt64) :
    (x &&& ~~~mask).toNat + (x &&& mask).toNat = x.toNat := by
  have hapart : (x.toBitVec &&& ~~~mask.toBitVec) &&& (x.toBitVec &&& mask.toBitVec) = 0#64 := by
    ext i hi
    simp only [BitVec.getElem_and, BitVec.getElem_not, BitVec.getElem_zero]
    cases mask.toBitVec[i] <;> simp
  have hjoin : (x.toBitVec &&& ~~~mask.toBitVec) ||| (x.toBitVec &&& mask.toBitVec) = x.toBitVec := by
    ext i hi
    simp only [BitVec.getElem_or, BitVec.getElem_and, BitVec.getElem_not]
    cases mask.toBitVec[i] <;> simp
  calc (x &&& ~~~mask).toNat + (x &&& mask).toNat
      = ((x.toBitVec &&& ~~~mask.toBitVec) + (x.toBitVec &&& mask.toBitVec)).toNat :=
        (BitVec.toNat_add_of_and_eq_zero hapart).symm
    _ = x.toBitVec.toNat := by rw [BitVec.add_eq_or_of_and_eq_zero _ _ hapart, hjoin]

/-- An address is the start of a page and a position inside it. -/
theorem toNat_alignDown_add_pageOffset (a : Address) :
    a.alignDown.toNat + a.pageOffset.val = a.toNat :=
  toNat_and_not_add_and a.word offsetMask

end Address

namespace Range

variable {r : Range} {a : Address} {p q : Page}

theorem contains_iff (r : Range) (a : Address) :
    r.contains a = true ↔ r.base.toNat ≤ a.toNat ∧ a.toNat < r.base.toNat + memorySize := by
  simp [contains, toNat_stop]

/-- An address belongs to the page whose bytes it is one of. -/
theorem pageOf?_eq_some_iff : r.pageOf? a = some p ↔
    (r.addressOf p).toNat ≤ a.toNat ∧ a.toNat < (r.addressOf p).toNat + pageSize := by
  have hp := p.isLt
  have hcontains := r.contains_iff a
  rw [toNat_addressOf, pageOf?]
  split
  · rename_i hin
    obtain ⟨hle, -⟩ := hcontains.mp hin
    rw [Page.ofNat?_eq_some_iff]
    simp only [pageSize]
    omega
  · rename_i hout
    rw [hcontains] at hout
    simp only [reduceCtorEq, false_iff, pageSize, pageCount, memorySize] at *
    omega

/-- The addresses of the range are those that belong to a page. -/
theorem isSome_pageOf? (r : Range) (a : Address) : (r.pageOf? a).isSome = r.contains a := by
  rw [Bool.eq_iff_iff, r.contains_iff, Option.isSome_iff_exists]
  simp only [pageOf?_eq_some_iff, toNat_addressOf]
  constructor
  · rintro ⟨p, hle, hlt⟩
    have hp := p.isLt
    simp only [pageSize, pageCount, memorySize] at *
    omega
  · rintro ⟨hle, hlt⟩
    have hp : (a.toNat - r.base.toNat) / pageSize < pageCount := by
      simp only [pageSize, pageCount, memorySize] at *
      omega
    refine ⟨⟨_, hp⟩, ?_⟩
    simp only [pageSize]
    omega

/-- The page of an address starts where the low bits of the address are zero. -/
theorem alignDown_of_pageOf? (h : r.pageOf? a = some p) : a.alignDown = r.addressOf p := by
  have hbase := (Address.isPageAligned_iff _).mp r.aligned
  obtain ⟨hle, hlt⟩ := pageOf?_eq_some_iff.mp h
  have hstart : (r.addressOf p).toNat % pageSize = 0 := by
    rw [toNat_addressOf, Nat.add_mul_mod_self_right, hbase]
  have hsplit := a.toNat_alignDown_add_pageOffset
  apply Address.ext
  rw [Address.val_pageOffset] at hsplit
  simp only [pageSize] at *
  omega

/-- No byte belongs to two pages. -/
theorem addressOf_disjoint (r : Range) (h : p ≠ q) :
    (r.addressOf p).toNat + pageSize ≤ (r.addressOf q).toNat ∨
      (r.addressOf q).toNat + pageSize ≤ (r.addressOf p).toNat := by
  have hne : p.val ≠ q.val := fun he => h (Fin.ext he)
  simp only [toNat_addressOf, pageSize]
  omega

/-- A base inside a page is refused, and so is one too close to the end of the address space. -/
theorem ofBase_of_refused {base : Address}
    (h : ¬ (base.toNat % pageSize = 0 ∧ base.toNat + memorySize < wordLimit)) :
    ofBase base =
      .error (if base.toNat % pageSize = 0 then .rangeWraps else .baseNotAligned) := by
  have haligned := Address.isPageAligned_iff base
  unfold ofBase
  by_cases hbase : base.toNat % pageSize = 0
  · rw [dif_pos (haligned.mpr hbase), dif_neg (fun hfits => h ⟨hbase, hfits⟩), if_pos hbase]
  · rw [dif_neg (mt haligned.mp hbase), if_neg hbase]

theorem ofBase_of_accepted {base : Address} (haligned : base.toNat % pageSize = 0)
    (hfits : base.toNat + memorySize < wordLimit) : ∃ r, ofBase base = .ok r ∧ r.base = base := by
  have h := (Address.isPageAligned_iff base).mpr haligned
  exact ⟨⟨base, h, hfits⟩, by rw [ofBase, dif_pos h, dif_pos hfits], rfl⟩

/-- A range starts at a page boundary and ends inside the address space; any other base is refused.
No address that the range computes wraps around: neither its end nor the start of a page. The
addresses of the range are those that belong to a page, and each of them belongs to the one page
whose bytes it is one of. The page starts at the address with its low bits cleared, and the low bits
are the position inside it. The bytes of two pages do not overlap, and those of each page lie in the
range. -/
theorem pages_of_ofBase (base : Address) :
    (base.toNat % pageSize = 0 → base.toNat + memorySize < wordLimit →
      ∃ r, ofBase base = .ok r ∧ r.base = base ∧ r.stop.toNat = base.toNat + memorySize ∧
        (∀ p : Page, (r.addressOf p).toNat = base.toNat + p.val * pageSize ∧
          (r.addressOf p).toNat + pageSize ≤ r.stop.toNat) ∧
        (∀ a, (r.contains a = true ↔ base.toNat ≤ a.toNat ∧ a.toNat < r.stop.toNat) ∧
          ((r.pageOf? a).isSome = true ↔ r.contains a = true)) ∧
        (∀ a p, r.pageOf? a = some p ↔
          (r.addressOf p).toNat ≤ a.toNat ∧ a.toNat < (r.addressOf p).toNat + pageSize) ∧
        (∀ a p, r.pageOf? a = some p → r.addressOf p = a.alignDown ∧
          a.toNat - (r.addressOf p).toNat = a.pageOffset.val) ∧
        ∀ p q : Page, p ≠ q → (r.addressOf p).toNat + pageSize ≤ (r.addressOf q).toNat ∨
          (r.addressOf q).toNat + pageSize ≤ (r.addressOf p).toNat) ∧
      (¬ (base.toNat % pageSize = 0 ∧ base.toNat + memorySize < wordLimit) →
        ofBase base =
          .error (if base.toNat % pageSize = 0 then .rangeWraps else .baseNotAligned)) := by
  refine ⟨?_, ofBase_of_refused⟩
  intro haligned hfits
  obtain ⟨r, hr, rfl⟩ := ofBase_of_accepted haligned hfits
  refine ⟨r, hr, rfl, r.toNat_stop, ?_, ?_, fun a p => pageOf?_eq_some_iff, ?_,
    fun p q => r.addressOf_disjoint⟩
  · intro p
    have hp := p.isLt
    refine ⟨r.toNat_addressOf p, ?_⟩
    rw [toNat_addressOf, toNat_stop]
    simp only [pageSize, pageCount, memorySize] at *
    omega
  · intro a
    rw [toNat_stop, isSome_pageOf?]
    exact ⟨r.contains_iff a, Iff.rfl⟩
  · intro a p h
    have hsplit := a.toNat_alignDown_add_pageOffset
    rw [alignDown_of_pageOf? h] at hsplit
    exact ⟨(alignDown_of_pageOf? h).symm, by omega⟩

/-- The last base that is accepted, with the last byte of its range, and the next page boundary, from
which a range would end one byte too late. -/
theorem pages_of_ofBase_last :
    (∃ r, ofBase (.ofNat 0xFFFFFFFFFEFFF000) = .ok r ∧ r.stop = .ofNat 0xFFFFFFFFFFFFF000 ∧
      r.pageOf? (.ofNat 0xFFFFFFFFFFFFEFFF) = some 4095 ∧ r.pageOf? r.stop = none ∧
      r.addressOf 4095 = Address.alignDown (.ofNat 0xFFFFFFFFFFFFEFFF)) ∧
      ofBase (.ofNat 0xFFFFFFFFFF000000) = .error .rangeWraps := by
  obtain ⟨haccepted, -⟩ := pages_of_ofBase (.ofNat 0xFFFFFFFFFEFFF000)
  obtain ⟨-, hrefused⟩ := pages_of_ofBase (.ofNat 0xFFFFFFFFFF000000)
  obtain ⟨r, hr, hbase, hstop, hstart, hcontains, hpage, hlow, -⟩ :=
    haccepted (by decide) (by decide)
  have hlast : r.pageOf? (.ofNat 0xFFFFFFFFFFFFEFFF) = some 4095 := by
    rw [hpage, (hstart 4095).1]
    decide
  refine ⟨⟨r, hr, ?_, hlast, ?_, (hlow _ _ hlast).1⟩, hrefused (by decide)⟩
  · apply Address.ext
    rw [hstop]
    decide
  · rw [Option.eq_none_iff_forall_ne_some]
    intro p hp
    have hin : r.contains r.stop = true := (hcontains r.stop).2.mp (by rw [hp]; rfl)
    have := (hcontains r.stop).1.mp hin
    omega

end Range

end DemandPaging
