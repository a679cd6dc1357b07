import DemandPaging.Policy.Kind
import DemandPaging.Text.Unsigned
import Mathlib.Data.List.TakeWhile

/-!
# What a text says

A text that says a number is a row of decimal digits, after at most one plus sign; a text that says a
name is the name with blanks around it, in capital or small letters. This is stated here without the
readers. A reader accepts exactly the texts that say something, and gives what they say.
-/

namespace DemandPaging

namespace Text

/-! ## Numbers -/

/-- `cs` are the decimal digits of `n`, with any number of leading zeros. -/
def Digits (cs : List Char) (n : Nat) : Prop :=
  cs ≠ [] ∧ (∀ c ∈ cs, c.isDigit = true) ∧ Nat.ofDigitChars 10 cs 0 = n

/-- `s` says the number `n`: its digits, after at most one plus sign. -/
def Numeral (s : String) (n : Nat) : Prop :=
  ∃ cs, Digits cs n ∧ (s.toList = cs ∨ s.toList = '+' :: cs)

section Numbers

variable {s : String} {cs : List Char} {n acc bound : Nat}

theorem digitsValue?_eq_some_iff : digitsValue? acc cs = some n ↔
    (∀ c ∈ cs, c.isDigit = true) ∧ Nat.ofDigitChars 10 cs acc = n := by
  induction cs generalizing acc with
  | nil => simp [digitsValue?, Nat.ofDigitChars]
  | cons c cs ih =>
    rw [digitsValue?, Nat.ofDigitChars_cons, List.forall_mem_cons, and_assoc]
    split
    · next hc => rw [ih, and_iff_right hc]
    · next hc => exact iff_of_false nofun fun h => hc h.1

theorem unsignedDigits?_eq_some_iff : unsignedDigits? cs = some n ↔ Digits cs n := by
  cases cs with
  | nil => exact iff_of_false nofun fun h => h.1 rfl
  | cons c cs => exact digitsValue?_eq_some_iff.trans (and_iff_right (List.cons_ne_nil c cs)).symm

theorem not_digits_plus : ¬ Digits ('+' :: cs) n :=
  fun h => Bool.false_ne_true (h.2.1 '+' (List.mem_cons_self ..))

theorem numeral_of_plus (hs : s.toList = '+' :: cs) : Numeral s n ↔ Digits cs n := by
  constructor
  · rintro ⟨cs', h, hs' | hs'⟩
    · rw [← hs', hs] at h
      exact absurd h not_digits_plus
    · rw [hs, List.cons_inj_right] at hs'
      rwa [hs']
  · exact fun h => ⟨cs, h, .inr hs⟩

theorem numeral_of_no_plus (hs : ∀ cs, s.toList ≠ '+' :: cs) : Numeral s n ↔ Digits s.toList n := by
  constructor
  · rintro ⟨cs, h, hs' | hs'⟩
    · rwa [hs']
    · exact absurd hs' (hs cs)
  · exact fun h => ⟨s.toList, h, .inl rfl⟩

/-- The numbers that are read are those below the bound that the text says. -/
theorem unsigned?_eq_some_iff : unsigned? bound s = some n ↔ Numeral s n ∧ n < bound := by
  rw [unsigned?, Option.filter_eq_some_iff, decide_eq_true_iff]
  refine and_congr_left' ?_
  rw [unsignedDigits?_eq_some_iff]
  split
  · next cs hs => exact (numeral_of_plus hs).symm
  · next hs => exact (numeral_of_no_plus hs).symm

end Numbers

/-! ## Names -/

/-- `s` says the name `word`: in letters of any case, with blanks around it. -/
def Names (s word : String) : Prop :=
  ∃ front name back : List Char, s.toList = front ++ name ++ back ∧
    (∀ c ∈ front, isBlank c = true) ∧ (∀ c ∈ back, isBlank c = true) ∧
    foldCase name = foldCase word.toList

section Names

variable {s word : String} {front name back : List Char}

theorem isBlank_of_isAlpha {c : Char} (h : c.isAlpha = true) : isBlank c = false := by
  have hletter : (65 ≤ c.toNat ∧ c.toNat ≤ 90) ∨ (97 ≤ c.toNat ∧ c.toNat ≤ 122) := by
    rcases Bool.or_eq_true_iff.mp h with hupper | hlower
    · exact .inl (of_decide_eq_true hupper)
    · obtain ⟨hlow, hhigh⟩ := Bool.and_eq_true_iff.mp hlower
      exact .inr ⟨of_decide_eq_true hlow, of_decide_eq_true hhigh⟩
  simp only [isBlank, Bool.or_eq_false_iff, Bool.and_eq_false_iff, decide_eq_false_iff_not,
    beq_eq_false_iff_ne]
  omega

/-- Only capital letters are made small, so what becomes a letter was one. -/
theorem isAlpha_of_toLower {c : Char} (h : c.toLower.isAlpha = true) : c.isAlpha = true := by
  by_cases hupper : c.isUpper = true
  · exact Bool.or_eq_true_iff.mpr (.inl hupper)
  · have hkept : c.toLower = c := dif_neg fun hrange => hupper (decide_eq_true hrange)
    rwa [hkept] at h

theorem isBlank_of_foldCase (h : (foldCase name).all Char.isAlpha = true) :
    ∀ c ∈ name, isBlank c = false := fun _ hc =>
  isBlank_of_isAlpha (isAlpha_of_toLower (List.all_eq_true.mp h _ (List.mem_map_of_mem hc)))

theorem dropWhile_isBlank (hname : ∀ c ∈ name, isBlank c = false) (hne : name ≠ []) :
    (name ++ back).dropWhile isBlank = name ++ back := by
  obtain ⟨c, name, rfl⟩ := List.exists_cons_of_ne_nil hne
  rw [List.cons_append, List.dropWhile_cons_of_neg]
  rw [hname c (List.mem_cons_self ..)]
  exact Bool.false_ne_true

/-- The blanks around a name are what is trimmed. -/
theorem trimBlanks_append (hfront : ∀ c ∈ front, isBlank c = true)
    (hback : ∀ c ∈ back, isBlank c = true) (hname : ∀ c ∈ name, isBlank c = false)
    (hne : name ≠ []) : trimBlanks (front ++ name ++ back) = name := by
  have hlast : name.reverse.dropWhile isBlank = name.reverse := by
    rw [← List.append_nil name.reverse]
    exact dropWhile_isBlank (fun c hc => hname c (List.mem_reverse.mp hc))
      (List.reverse_ne_nil_iff.mpr hne)
  rw [trimBlanks, List.append_assoc, List.dropWhile_append_of_pos hfront,
    dropWhile_isBlank hname hne, List.reverse_append,
    List.dropWhile_append_of_pos fun c hc => hback c (List.mem_reverse.mp hc), hlast,
    List.reverse_reverse]

theorem exists_eq_append_trimBlanks (cs : List Char) : ∃ front back : List Char,
    cs = front ++ trimBlanks cs ++ back ∧ (∀ c ∈ front, isBlank c = true) ∧
      ∀ c ∈ back, isBlank c = true := by
  refine ⟨cs.takeWhile isBlank, ((cs.dropWhile isBlank).reverse.takeWhile isBlank).reverse, ?_,
    fun _ => List.mem_takeWhile_imp, fun c hc => List.mem_takeWhile_imp (List.mem_reverse.mp hc)⟩
  rw [trimBlanks, List.append_assoc, ← List.reverse_append, List.takeWhile_append_dropWhile,
    List.reverse_reverse, List.takeWhile_append_dropWhile]

/-- A name made of letters has no blank that could be trimmed with those around it. -/
theorem spells_iff_names (hword : (foldCase word.toList).all Char.isAlpha = true)
    (hne : foldCase word.toList ≠ []) : spells s word = true ↔ Names s word := by
  rw [spells, beq_iff_eq]
  constructor
  · intro h
    obtain ⟨front, back, hs, hfront, hback⟩ := exists_eq_append_trimBlanks s.toList
    exact ⟨front, _, back, hs, hfront, hback, h⟩
  · rintro ⟨front, name, back, hs, hfront, hback, hname⟩
    have hname' : name ≠ [] := by
      rintro rfl
      exact hne hname.symm
    rw [hs, trimBlanks_append hfront hback (isBlank_of_foldCase (hname ▸ hword)) hname', hname]

end Names

end Text

namespace PolicyKind

variable {s : String} {kind : PolicyKind}

theorem ofText?_eq_some_iff_spells : ofText? s = some kind ↔ Text.spells s kind.text = true := by
  simp only [ofText?, Text.spells, beq_iff_eq]
  generalize Text.foldCase (Text.trimBlanks s.toList) = word
  constructor
  · intro h
    simpa using List.find?_some h
  · rintro rfl
    cases kind <;> decide

/-- The policy that is read is the one that the text names. -/
theorem ofText?_eq_some_iff : ofText? s = some kind ↔ Text.Names s kind.text := by
  rw [ofText?_eq_some_iff_spells]
  apply Text.spells_iff_names
  · cases kind <;> rfl
  · cases kind <;> nofun

end PolicyKind

end DemandPaging
