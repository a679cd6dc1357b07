import Mathlib.Algebra.Group.Nat.Defs
import DemandPaging.Proofs.Memory.Tick

/-!
# Words in memory

A word stands for its four bytes, the lowest first. A word that lies inside its
page is loaded as the word of the four bytes at its place, and storing it
replaces these four bytes and no other.
-/

namespace DemandPaging

namespace Word

/-- The byte with number `k` of a word, the lowest first. -/
def byte (w : UInt32) (k : Nat) : UInt8 := UInt8.ofNat (w.toNat / 256 ^ k)

/-- The word whose bytes are given, the lowest first. -/
def ofBytes (b : Nat → UInt8) : UInt32 :=
  UInt32.ofNat ((b 0).toNat + (b 1).toNat * 256 + (b 2).toNat * 65536 + (b 3).toNat * 16777216)

/-- A word depends on its four bytes only. -/
theorem ofBytes_congr {b c : Nat → UInt8} (h : ∀ k < 4, b k = c k) : ofBytes b = ofBytes c := by
  unfold ofBytes
  rw [h 0 (by decide), h 1 (by decide), h 2 (by decide), h 3 (by decide)]

/-- A word is made of its bytes. -/
theorem ofBytes_byte (w : UInt32) : ofBytes (byte w) = w := by
  have hw := w.toNat_lt
  refine UInt32.toNat.inj ?_
  simp only [ofBytes, byte, UInt32.toNat_ofNat', UInt8.toNat_ofNat', Nat.reducePow, Nat.div_one]
  omega

theorem byte_zero (w : UInt32) : w.toUInt8 = byte w 0 := by
  refine UInt8.toNat.inj ?_
  rw [byte, UInt8.toNat_ofNat', UInt32.toNat_toUInt8, Nat.pow_zero, Nat.div_one]

/-- A shift by whole bytes brings another byte to the front. -/
theorem byte_shiftRight (w : UInt32) {n : UInt32} {k : Nat} (hk : k < 4) (hn : n.toNat = 8 * k) :
    (w >>> n).toUInt8 = byte w k := by
  refine UInt8.toNat.inj ?_
  have hshift : n.toNat % 32 = 8 * k := by omega
  rw [byte, UInt8.toNat_ofNat', UInt32.toNat_toUInt8, UInt32.toNat_shiftRight, hshift,
    Nat.shiftRight_eq_div_pow, Nat.pow_mul]

/-- Bits above those of `a` are added to it. -/
private theorem or_shiftLeft {a n : Nat} (b : Nat) (ha : a < 2 ^ n) :
    a ||| b <<< n = a + b * 2 ^ n := by
  rw [Nat.or_comm, ← Nat.shiftLeft_add_eq_or_of_lt ha, Nat.shiftLeft_eq, Nat.add_comm]

/-- Four bytes put side by side are the word of these bytes. -/
theorem or_eq_ofBytes (b : Nat → UInt8) :
    (b 0).toUInt32 ||| (b 1).toUInt32 <<< 8 ||| (b 2).toUInt32 <<< 16 ||| (b 3).toUInt32 <<< 24 =
      ofBytes b := by
  have h0 := (b 0).toNat_lt
  have h1 := (b 1).toNat_lt
  have h2 := (b 2).toNat_lt
  have h3 := (b 3).toNat_lt
  have h8 : (b 1).toNat <<< 8 = (b 1).toNat * 2 ^ 8 := Nat.shiftLeft_eq ..
  have h16 : (b 2).toNat <<< 16 = (b 2).toNat * 2 ^ 16 := Nat.shiftLeft_eq ..
  have h24 : (b 3).toNat <<< 24 = (b 3).toNat * 2 ^ 24 := Nat.shiftLeft_eq ..
  refine UInt32.toNat.inj ?_
  simp only [UInt32.toNat_or, UInt32.toNat_shiftLeft, UInt8.toNat_toUInt32, ofBytes,
    UInt32.toNat_ofNat', UInt32.reduceToNat, Nat.reduceMod]
  rw [Nat.mod_eq_of_lt (a := (b 1).toNat <<< 8) (by omega),
    Nat.mod_eq_of_lt (a := (b 2).toNat <<< 16) (by omega),
    Nat.mod_eq_of_lt (a := (b 3).toNat <<< 24) (by omega),
    or_shiftLeft (a := (b 0).toNat) _ (by omega), or_shiftLeft (n := 16) _ (by omega),
    or_shiftLeft (n := 24) _ (by omega)]
  omega

end Word

namespace PageImage

variable {i : Offset}

/-- The places of the bytes of a word. -/
private theorem val_add (hi : i.val + 4 ≤ pageSize) {k : Offset} (hk : k.val < 4) :
    (i + k).val = i.val + k.val := by
  rw [Fin.val_add]
  exact Nat.mod_eq_of_lt (by omega)

/-- A word inside its page is the word of the four bytes at its place. -/
theorem word_eq_ofBytes (m : PageImage) (hi : i.val + 4 ≤ pageSize) {b : Nat → UInt8}
    (hb : ∀ k < 4, ∀ j : Offset, j.val = i.val + k → m.get j = b k) : m.word i = Word.ofBytes b := by
  rw [← Word.or_eq_ofBytes, word, hb 0 (by decide) i rfl, hb 1 (by decide) (i + 1) (val_add hi ?_),
    hb 2 (by decide) (i + 2) (val_add hi ?_), hb 3 (by decide) (i + 3) (val_add hi ?_)] <;> decide

/-- A stored word replaces the four bytes at its place by those of the word. -/
theorem get_setWord (m : PageImage) (hi : i.val + 4 ≤ pageSize) (w : UInt32) (j : Offset) :
    (m.setWord i w).get j =
      if i.val ≤ j.val ∧ j.val < i.val + 4 then Word.byte w (j.val - i.val) else m.get j := by
  have h1 : (i + 1).val = i.val + 1 := val_add hi (by decide)
  have h2 : (i + 2).val = i.val + 2 := val_add hi (by decide)
  have h3 : (i + 3).val = i.val + 3 := val_add hi (by decide)
  rw [setWord, Word.byte_zero, Word.byte_shiftRight w (k := 1) (by decide) (by decide),
    Word.byte_shiftRight w (k := 2) (by decide) (by decide),
    Word.byte_shiftRight w (k := 3) (by decide) (by decide)]
  simp only [get_set, Fin.ext_iff, h1, h2, h3]
  by_cases hin : i.val ≤ j.val ∧ j.val < i.val + 4
  · obtain ⟨k, hk, hj⟩ : ∃ k < 4, j.val = i.val + k := ⟨j.val - i.val, by omega, by omega⟩
    rw [if_pos hin, hj, Nat.add_sub_cancel_left]
    simp only [Nat.add_left_cancel_iff]
    obtain rfl | rfl | rfl | rfl : k = 0 ∨ k = 1 ∨ k = 2 ∨ k = 3 := by omega
    · rw [if_neg (by decide), if_neg (by decide), if_neg (by decide)]
      exact if_pos rfl
    · rfl
    · rfl
    · rfl
  · rw [if_neg hin, if_neg (by omega), if_neg (by omega), if_neg (by omega), if_neg (by omega)]

end PageImage

namespace Memory

variable {s : Memory} {p : Page} {i : Offset}

/-- The word at an offset of page `p` is replaced in memory. -/
def storedWord (s : Memory) (p : Page) (i : Offset) (w : UInt32) : Memory :=
  { s with mapping := s.mapping.storeWord p i w }

theorem cell_storedWord (s : Memory) (p : Page) (i : Offset) (w : UInt32) :
    (s.storedWord p i w).cell = Function.update s.cell p ((s.cell p).rewrite (·.setWord i w)) := by
  refine Function.eq_update_iff.mpr ⟨?_, fun q h => ?_⟩
  · simp only [cell, storedWord, entry, Mapping.storeWord, Mapping.frame, PageMap.get_modify,
      ite_true, Cell.rewrite]
  · simp only [cell, storedWord, entry, Mapping.storeWord, Mapping.frame, PageMap.get_modify,
      Ne.symm h, ite_false]

/-- A word that is stored to a writable page leaves sound memory. -/
theorem Sound.storedWord (h : s.Sound) (hp : (s.entry p).permission = .readWrite) (i : Offset)
    (w : UInt32) : (s.storedWord p i w).Sound :=
  h.of_update (cell_storedWord s p i w) ((h.cell p).rewrite hp _) rfl rfl rfl rfl

/-- A stored word replaces four bytes of one page. -/
theorem Sound.get_contents_storedWord (h : s.Sound) (hr : (s.entry p).resident = true)
    (hi : i.val + 4 ≤ pageSize) (w : UInt32) (q : Page) (j : Offset) :
    ((s.storedWord p i w).contents q).get j =
      if p = q ∧ i.val ≤ j.val ∧ j.val < i.val + 4 then Word.byte w (j.val - i.val)
      else (s.contents q).get j := by
  unfold contents
  rw [cell_storedWord]
  by_cases hq : p = q
  · subst hq
    rw [Function.update_self, (h.cell p).contents_rewrite hr, PageImage.get_setWord _ hi]
    simp only [true_and]
  · rw [Function.update_of_ne (Ne.symm hq), if_neg (fun hand => hq hand.1)]

end Memory

end DemandPaging
