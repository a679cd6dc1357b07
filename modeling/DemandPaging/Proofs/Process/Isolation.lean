import DemandPaging.Proofs.Process.View

/-!
# Regions are independent blocks of bytes

A `Ledger` knows nothing of pages: it keeps the sizes of the regions and the
uses that were accepted, and answers a use from them. The byte of a region is
the one that was stored there last through that region, be it as a byte or as
part of a word. `Agrees` relates a ledger to the view of a process through the
position of each region; the regions lie apart, so a store to one of them is
not seen through another. The process answers every use as the ledger does, and
rejects a use without a trace where the ledger has no answer.
-/

namespace DemandPaging.UserProcess

open Step

/-! ## The ledger -/

/-- The byte that a use stores at offset `j` of region `n`, if it stores there. -/
def Use.stores (n j : Nat) : Use → Option UInt8
  | .writeByte m offset b => if m = n ∧ j = offset then some b else none
  | .writeWord m index w =>
    if m = n ∧ index * Region.wordSize ≤ j ∧ j < index * Region.wordSize + Region.wordSize then
      some (Word.byte w.toUInt32 (j - index * Region.wordSize))
    else none
  | .allocate _ | .tick | .readByte _ _ | .readWord _ _ => none

/-- The region that a use accesses. -/
def Use.target : Use → Option Nat
  | .allocate _ | .tick => none
  | .readByte n _ | .writeByte n _ _ | .readWord n _ | .writeWord n _ _ => some n

/-- The byte that was stored last at offset `j` of region `n`, where the last use stands first; zero,
if there was none. -/
def lastWritten (n j : Nat) : List Use → UInt8
  | [] => 0
  | x :: earlier => (x.stores n j).getD (lastWritten n j earlier)

/-- What has to be remembered to answer uses. -/
structure Ledger where
  /-- The sizes of the regions, by their numbers. -/
  sizes : List Nat := []
  /-- Bytes in use by the regions and the gaps before them. -/
  used : Nat := 0
  /-- The uses that were accepted; the last one stands first. -/
  accepted : List Use := []

namespace Ledger

/-- The byte at offset `j` of region `n`. -/
def byte (l : Ledger) (n j : Nat) : UInt8 := lastWritten n j l.accepted

/-- The word with number `index` of region `n`: its four bytes, the lowest first. -/
def word (l : Ledger) (n index : Nat) : UInt32 :=
  Word.ofBytes fun k => l.byte n (index * Region.wordSize + k)

/-- The element lies inside region `n` as a whole. -/
def inside (l : Ledger) (n offset size : Nat) : Bool :=
  l.sizes[n]?.any fun length => decide (offset + size ≤ length)

/-- There is room for a region behind those in use. -/
def hasRoom (l : Ledger) (size : Nat) : Bool := decide (Memory.alignUp l.used + size ≤ memorySize)

/-- The answer to a use; none, if the use is rejected. -/
def answer (l : Ledger) : Use → Option Reply
  | .allocate size => some (.region (if l.hasRoom size then some l.sizes.length else none))
  | .tick => some .done
  | .readByte n offset => if l.inside n offset 1 then some (.byte (l.byte n offset)) else none
  | .writeByte n offset _ => if l.inside n offset 1 then some .done else none
  | .readWord n index =>
    if l.inside n (index * Region.wordSize) Region.wordSize then some (.word (l.word n index).toInt32)
    else none
  | .writeWord n index _ =>
    if l.inside n (index * Region.wordSize) Region.wordSize then some .done else none

/-- The regions after a use. -/
def grow (l : Ledger) : Use → Ledger
  | .allocate size =>
    if l.hasRoom size then
      { l with sizes := l.sizes ++ [size], used := Memory.alignUp l.used + size }
    else l
  | .tick | .readByte _ _ | .writeByte _ _ _ | .readWord _ _ | .writeWord _ _ _ => l

/-- The ledger after a use. A use that is rejected leaves no trace. -/
def next (l : Ledger) (x : Use) : Ledger :=
  if (l.answer x).isSome then { l.grow x with accepted := x :: l.accepted } else l

end Ledger

/-- An answer that depends on the place of an element is missing where the element is not inside. -/
theorem Ledger.inside_eq_false {l : Ledger} {n offset size : Nat} {reply : Reply}
    (h : (if l.inside n offset size then some reply else none) = none) :
    l.inside n offset size = false := by
  cases hin : l.inside n offset size with
  | false => rfl
  | true =>
    rw [hin] at h
    cases h

/-- A use of one region does not change the answer to a use of another. -/
theorem Ledger.answer_next_of_apart (l : Ledger) {x y : Use} {m n : Nat} (hx : x.target = some m)
    (hy : y.target = some n) (hmn : m ≠ n) : (l.next x).answer y = l.answer y := by
  have hsizes : (l.next x).sizes = l.sizes := by
    unfold next
    split
    · cases x <;> first | rfl | cases hx
    · rfl
  have hbyte (j : Nat) : (l.next x).byte n j = l.byte n j := by
    have hnone : x.stores n j = none := by
      cases x <;> cases hx
      · rfl
      · exact if_neg fun hand => hmn hand.1
      · rfl
      · exact if_neg fun hand => hmn hand.1
    unfold next
    split
    · rw [byte, lastWritten, hnone]
      rfl
    · rfl
  have hinside (offset size : Nat) : (l.next x).inside n offset size = l.inside n offset size := by
    rw [inside, hsizes]
    rfl
  cases y with
  | allocate size => cases hy
  | tick => cases hy
  | readByte k offset =>
    cases hy
    rw [answer, answer, hinside, hbyte]
  | writeByte k offset b =>
    cases hy
    rw [answer, answer, hinside]
  | readWord k index =>
    cases hy
    rw [answer, answer, hinside, word, word]
    simp only [hbyte]
  | writeWord k index w =>
    cases hy
    rw [answer, answer, hinside]

/-! ## The positions of the regions -/

variable {host : Host} {config : Config} {u : UserProcess} {v : View} {f : FlatMemory} {l : Ledger}
  {place : Nat → Nat} {x : Use} {n offset size length j : Nat}

/-- The ledger accounts for the view, where region `n` starts at position `place n`. -/
structure Agrees (l : Ledger) (v : View) (place : Nat → Nat) : Prop where
  /-- The same bytes are in use. -/
  used : v.used = l.used
  /-- They are inside the range. -/
  bounded : l.used ≤ memorySize
  /-- There are as many regions. -/
  count : v.regions.size = l.sizes.length
  /-- Each region has its size and lies at its position. -/
  region : ∀ {n length}, l.sizes[n]? = some length →
    ∃ r : Region, v.regions[n]? = some r ∧ r.length = length ∧ r.Lies v.range (place n)
  /-- Every region ends before the unused bytes. -/
  below : ∀ {n length}, l.sizes[n]? = some length → place n + length ≤ l.used
  /-- Regions do not overlap. -/
  apart : ∀ {m n k length}, m < n → l.sizes[m]? = some k → l.sizes[n]? = some length →
    place m + k ≤ place n
  /-- Every byte of a region is the one that was stored last. -/
  bytes : ∀ {n length j}, l.sizes[n]? = some length → j < length → v.bytes (place n + j) = l.byte n j
  /-- Unused bytes are zero. -/
  unused : ∀ {k}, l.used ≤ k → v.bytes k = 0
  /-- Nothing was stored through a region that does not exist yet. -/
  unwritten : ∀ {n j}, l.sizes.length ≤ n → l.byte n j = 0

section Outside

variable {r : Region} {index : Nat}

/-! An element that is not inside its region is not accessed: the process panics first. -/

theorem rejects_readByte (host : Host) (hout : ¬ offset + 1 ≤ r.length) (u : UserProcess) :
    ∃ panic, (readByte host r offset).Rejects u (.panic panic) :=
  ⟨_, (rejects_ofChecked (r.address_of_outside hout) u).bind _⟩

theorem rejects_writeByte (host : Host) (hout : ¬ offset + 1 ≤ r.length) (b : UInt8)
    (u : UserProcess) : ∃ panic, (writeByte host r offset b).Rejects u (.panic panic) :=
  ⟨_, (rejects_ofChecked (r.address_of_outside hout) u).bind _⟩

theorem rejects_readWord (host : Host)
    (hout : ¬ index * Region.wordSize + Region.wordSize ≤ r.length) (u : UserProcess) :
    ∃ panic, (readWord host r index).Rejects u (.panic panic) :=
  (r.exists_wordAddress_of_outside hout).imp fun _ hpanic => (rejects_ofChecked hpanic u).bind _

theorem rejects_writeWord (host : Host)
    (hout : ¬ index * Region.wordSize + Region.wordSize ≤ r.length) (w : Int32) (u : UserProcess) :
    ∃ panic, (writeWord host r index w).Rejects u (.panic panic) :=
  (r.exists_wordAddress_of_outside hout).imp fun _ hpanic => (rejects_ofChecked hpanic u).bind _

end Outside

/-- The regions of the process are those of the view. -/
theorem Holds.region?_eq {s : Memory} (h : u.Holds s v) : region? n u = v.regions[n]? := by
  rw [region?, h.active]
  rfl

theorem refines_region {r : Region} (hr : v.regions[n]? = some r) :
    (region n).Refines Shows v r v := by
  rintro u ⟨s, h⟩
  refine ⟨u, #[], (yields_query _ u).bind_silent ?_, s, h⟩
  rw [h.region?_eq, hr]
  exact Yields.pure r u

namespace Agrees

/-- A window inside one region holds no byte of another one. -/
theorem mem_window_iff (h : Agrees l v place) {m k : Nat} (hn : l.sizes[n]? = some length)
    (hin : offset + size ≤ length) (hm : l.sizes[m]? = some k) (hj : j < k) :
    (place n + offset ≤ place m + j ∧ place m + j < place n + offset + size) ↔
      n = m ∧ offset ≤ j ∧ j < offset + size := by
  obtain hlt | rfl | hgt := Nat.lt_trichotomy n m
  · have hapart := h.apart hlt hn hm
    omega
  · omega
  · have hapart := h.apart hgt hm hn
    omega

/-- An accepted use that replaces bytes of regions and nothing else. -/
theorem replaced (h : Agrees l v place) (hrange : f.range = v.range) (hused : f.used = v.used)
    (hbytes : ∀ m k j, l.sizes[m]? = some k → j < k →
      f.bytes (place m + j) = (x.stores m j).getD (v.bytes (place m + j)))
    (hunused : ∀ k, l.used ≤ k → f.bytes k = v.bytes k)
    (hnone : ∀ m j, l.sizes.length ≤ m → x.stores m j = none) :
    Agrees { l with accepted := x :: l.accepted } { v with toFlatMemory := f } place where
  used := hused.trans h.used
  bounded := h.bounded
  count := h.count
  region hn := by
    obtain ⟨r, hr, hlength, hlies⟩ := h.region hn
    exact ⟨r, hr, hlength, hrange ▸ hlies⟩
  below := h.below
  apart := h.apart
  bytes hn hj := by
    rw [hbytes _ _ _ hn hj, h.bytes hn hj]
    rfl
  unused hk := by rw [hunused _ hk, h.unused hk]
  unwritten {m j} hm := by
    have hzero := h.unwritten (j := j) hm
    rw [Ledger.byte, lastWritten, hnone m j hm]
    exact hzero

/-- An accepted use that stores nothing. -/
theorem observed (h : Agrees l v place) (hnone : ∀ m j, x.stores m j = none) :
    Agrees { l with accepted := x :: l.accepted } v place := by
  refine h.replaced rfl rfl (fun m k j _ _ => ?_) (fun _ _ => rfl) fun m j _ => hnone m j
  rw [hnone]
  rfl

/-- An accepted store of a byte. -/
theorem writtenByte (h : Agrees l v place) (hn : l.sizes[n]? = some length)
    (hin : offset + 1 ≤ length) (b : UInt8) :
    Agrees { l with accepted := .writeByte n offset b :: l.accepted }
      { v with toFlatMemory := v.store (place n + offset) b } place := by
  have hbelow := h.below hn
  refine h.replaced rfl rfl (fun m k j hm hj => ?_) (fun k hk => ?_) fun m j hm => ?_
  · have hwindow := h.mem_window_iff hn hin hm hj
    have hiff : place m + j = place n + offset ↔ n = m ∧ j = offset := by omega
    simp only [FlatMemory.store, Function.update_apply, hiff, Use.stores]
    split <;> rfl
  · refine Function.update_of_ne ?_ b v.bytes
    omega
  · have hlt := (List.getElem?_eq_some_iff.mp hn).1
    exact if_neg (by omega)

/-- An accepted store of a word. -/
theorem writtenWord (h : Agrees l v place) {index : Nat} (hn : l.sizes[n]? = some length)
    (hin : index * Region.wordSize + Region.wordSize ≤ length) (w : Int32) :
    Agrees { l with accepted := .writeWord n index w :: l.accepted }
      { v with toFlatMemory := v.storeWord (place n + index * Region.wordSize) w.toUInt32 }
      place := by
  have hbelow := h.below hn
  refine h.replaced rfl rfl (fun m k j hm hj => ?_) (fun k hk => if_neg ?_) fun m j hm => ?_
  · have hwindow := h.mem_window_iff hn hin hm hj
    simp only [FlatMemory.storeWord, hwindow, Use.stores]
    split
    · rename_i hstored
      have hsub : place m + j - (place n + index * Region.wordSize) = j - index * Region.wordSize := by
        rw [hstored.1]
        omega
      rw [hsub]
      rfl
    · rfl
  · simp only [Region.wordSize] at *
    omega
  · have hlt := (List.getElem?_eq_some_iff.mp hn).1
    exact if_neg (by omega)

/-- An accepted allocation: a new region behind those in use. -/
theorem allocated (h : Agrees l v place) (hroom : Memory.alignUp l.used + size ≤ memorySize) :
    Agrees
      { sizes := l.sizes ++ [size], used := Memory.alignUp l.used + size,
        accepted := .allocate size :: l.accepted }
      { v with toFlatMemory := v.reserve size, regions := v.regions.push (v.next size) }
      (Function.update place l.sizes.length (Memory.alignUp l.used)) := by
  have hle := Memory.le_alignUp l.used
  -- a region is an old one at its old position, or the new one
  have hcases {n length : Nat} (hn : (l.sizes ++ [size])[n]? = some length) :
      (l.sizes[n]? = some length ∧ n < l.sizes.length ∧
        Function.update place l.sizes.length (Memory.alignUp l.used) n = place n) ∨
      (n = l.sizes.length ∧ length = size ∧
        Function.update place l.sizes.length (Memory.alignUp l.used) n = Memory.alignUp l.used) := by
    obtain hlt | heq | hgt := Nat.lt_trichotomy n l.sizes.length
    · rw [List.getElem?_append_left hlt] at hn
      exact Or.inl ⟨hn, hlt, Function.update_of_ne (Nat.ne_of_lt hlt) ..⟩
    · subst heq
      rw [List.getElem?_concat_length, Option.some.injEq] at hn
      exact Or.inr ⟨rfl, hn.symm, Function.update_self ..⟩
    · rw [List.getElem?_eq_none (by rw [List.length_append, List.length_singleton]; omega)] at hn
      cases hn
  refine ⟨by rw [FlatMemory.reserve, h.used], hroom, ?_, ?_, ?_, ?_, ?_, ?_, ?_⟩
  · rw [Array.size_push, h.count, List.length_append, List.length_singleton]
  · intro n length hn
    obtain ⟨hn, hlt, hplace⟩ | ⟨rfl, rfl, hplace⟩ := hcases hn
    · obtain ⟨r, hr, hlength, hlies⟩ := h.region hn
      refine ⟨r, ?_, hlength, by rw [hplace]; exact hlies⟩
      rw [Array.getElem?_push_lt (by rw [h.count]; exact hlt), ← hr]
      exact (Array.getElem?_eq_getElem _).symm
    · refine ⟨v.next length, ?_, rfl, ?_⟩
      · rw [← h.count]
        exact Array.getElem?_push_size
      · rw [hplace, ← h.used]
        exact FlatMemory.lies_next (by rw [h.used]; exact hroom)
  · intro n length hn
    obtain ⟨hn, -, hplace⟩ | ⟨rfl, rfl, hplace⟩ := hcases hn
    · rw [hplace]
      exact Nat.le_trans (h.below hn) (Nat.le_trans hle (Nat.le_add_right ..))
    · exact Nat.le_of_eq (congrArg (· + length) hplace)
  · intro m n k length hmn hm hn
    obtain ⟨hold, -, hmplace⟩ | ⟨hm, -, -⟩ := hcases hm
    · rw [hmplace]
      obtain ⟨hn, -, hplace⟩ | ⟨-, -, hplace⟩ := hcases hn
      · rw [hplace]
        exact h.apart hmn hold hn
      · rw [hplace]
        exact Nat.le_trans (h.below hold) hle
    · obtain ⟨-, hlt, -⟩ | ⟨hn, -, -⟩ := hcases hn <;> omega
  · intro n length j hn hj
    obtain ⟨hn, -, hplace⟩ | ⟨rfl, rfl, hplace⟩ := hcases hn
    · rw [hplace]
      exact h.bytes hn hj
    · rw [hplace]
      have hfresh := h.unused (k := Memory.alignUp l.used + j) (Nat.le_trans hle (Nat.le_add_right ..))
      exact hfresh.trans (h.unwritten (Nat.le_refl _)).symm
  · intro k hk
    exact h.unused (Nat.le_trans hle (Nat.le_trans (Nat.le_add_right ..) hk))
  · intro n j hn
    rw [List.length_append, List.length_singleton] at hn
    exact h.unwritten (by omega)

/-- An element inside its region. -/
theorem of_inside (h : Agrees l v place) (hin : l.inside n offset size = true) :
    ∃ length r, l.sizes[n]? = some length ∧ offset + size ≤ length ∧ v.regions[n]? = some r ∧
      r.length = length ∧ r.Lies v.range (place n) := by
  obtain ⟨length, hn, hle⟩ := (Option.any_eq_true _ _).mp hin
  obtain ⟨r, hr, hlength, hlies⟩ := h.region hn
  exact ⟨length, r, hn, of_decide_eq_true hle, hr, hlength, hlies⟩

/-- An element that is not inside its region: there is no such region, or it is too short. -/
theorem of_outside (h : Agrees l v place) (hout : l.inside n offset size = false) :
    v.regions[n]? = none ∨ ∃ r : Region, v.regions[n]? = some r ∧ ¬ offset + size ≤ r.length := by
  cases hn : l.sizes[n]? with
  | none =>
    refine Or.inl (Array.getElem?_eq_none ?_)
    rw [h.count]
    exact List.getElem?_eq_none_iff.mp hn
  | some length =>
    obtain ⟨r, hr, hlength, -⟩ := h.region hn
    rw [Ledger.inside, hn, Option.any_some] at hout
    exact Or.inr ⟨r, hr, hlength ▸ of_decide_eq_false hout⟩

/-- A region of the view is one of the ledger, at its position. -/
theorem lies (h : Agrees l v place) {r : Region} (hr : v.regions[n]? = some r) :
    l.sizes[n]? = some r.length ∧ r.Lies v.range (place n) := by
  obtain ⟨hlt, -⟩ := Array.getElem?_eq_some_iff.mp hr
  rw [h.count] at hlt
  obtain ⟨r', hr', hlength, hlies⟩ := h.region (List.getElem?_eq_getElem hlt)
  obtain rfl : r' = r := Option.some.inj (hr'.symm.trans hr)
  exact ⟨(List.getElem?_eq_getElem hlt).trans (congrArg some hlength.symm), hlies⟩

/-- The words of the view are those of the ledger. -/
theorem word_eq (h : Agrees l v place) {index : Nat} (hn : l.sizes[n]? = some length)
    (hin : index * Region.wordSize + Region.wordSize ≤ length) :
    v.word (place n + index * Region.wordSize) = l.word n index := by
  refine Word.ofBytes_congr fun k hk => ?_
  have hlt : index * Region.wordSize + k < length := by
    simp only [Region.wordSize] at *
    omega
  rw [Nat.add_assoc]
  exact h.bytes hn hlt

/-- A use that the ledger answers is answered by the process, and both go on in agreement. -/
theorem step (hh : host.Obliging) (h : Agrees l v place) {reply : Reply}
    (ha : l.answer x = some reply) :
    ∃ v' place', (x.step host).Refines Shows v reply v' ∧ Agrees (l.next x) v' place' := by
  have hnext : l.next x = { l.grow x with accepted := x :: l.accepted } := by
    rw [Ledger.next, ha]
    rfl
  rw [hnext]
  cases x with
  | allocate size =>
    cases hroom : l.hasRoom size with
    | true =>
      have hfits : Memory.alignUp l.used + size ≤ memorySize := of_decide_eq_true hroom
      have hroom' : Memory.alignUp v.used + size ≤ memorySize := by rwa [h.used]
      have hreply : reply = .region (some v.regions.size) := by
        rw [Ledger.answer, hroom, Option.some.injEq] at ha
        rw [← ha, h.count]
        rfl
      subst hreply
      refine ⟨_, Function.update place l.sizes.length (Memory.alignUp l.used),
        (refines_allocate hroom').bind (Refines.pure _ _), ?_⟩
      rw [Ledger.grow, hroom]
      exact h.allocated hfits
    | false =>
      have hfull : ¬ Memory.alignUp v.used + size ≤ memorySize := by
        rw [h.used]
        exact of_decide_eq_false hroom
      rw [Ledger.answer, hroom] at ha
      cases ha
      refine ⟨v, place, (refines_allocate_none hfull).bind (Refines.pure _ v), ?_⟩
      rw [Ledger.grow, hroom]
      exact h.observed fun _ _ => rfl
  | tick =>
    cases ha
    exact ⟨v, place, (refines_tick hh v).bind (Refines.pure _ v), h.observed fun _ _ => rfl⟩
  | readByte n offset =>
    obtain ⟨hin, ha⟩ := Option.ite_none_right_eq_some.mp ha
    obtain ⟨length, r, hn, hle, hr, rfl, hlies⟩ := h.of_inside hin
    cases ha
    rw [← h.bytes hn hle]
    exact ⟨v, place, (refines_region hr).bind
      ((refines_readByte hh hlies hle).bind (Refines.pure _ v)), h.observed fun _ _ => rfl⟩
  | writeByte n offset b =>
    obtain ⟨hin, ha⟩ := Option.ite_none_right_eq_some.mp ha
    obtain ⟨length, r, hn, hle, hr, rfl, hlies⟩ := h.of_inside hin
    cases ha
    exact ⟨_, place, (refines_region hr).bind
      ((refines_writeByte hh hlies hle b).bind (Refines.pure _ _)), h.writtenByte hn hle b⟩
  | readWord n index =>
    obtain ⟨hin, ha⟩ := Option.ite_none_right_eq_some.mp ha
    obtain ⟨length, r, hn, hle, hr, rfl, hlies⟩ := h.of_inside hin
    cases ha
    rw [← h.word_eq hn hle]
    exact ⟨v, place, (refines_region hr).bind
      (((serves_step hh).does_readWord hlies hle).bind (Refines.pure _ v)), h.observed fun _ _ => rfl⟩
  | writeWord n index w =>
    obtain ⟨hin, ha⟩ := Option.ite_none_right_eq_some.mp ha
    obtain ⟨length, r, hn, hle, hr, rfl, hlies⟩ := h.of_inside hin
    cases ha
    exact ⟨_, place, (refines_region hr).bind
      (((serves_step hh).does_writeWord hlies hle w).bind (Refines.pure _ _)), h.writtenWord hn hle w⟩

/-- A use without an answer is rejected without a trace: with a panic, unless the region does not
exist at all. -/
theorem reject (h : Agrees l v place) (hu : u.Shows v) (ha : l.answer x = none) (host : Host) :
    ∃ stop, (x.step host).Rejects u stop ∧
      ((∃ panic, stop = .panic panic) ∨ ∃ n, x.target = some n ∧ region? n u = none) := by
  obtain ⟨s, hs⟩ := hu
  -- an access without an answer asks for an element outside its region
  have hrejected {α : Type} {n offset size : Nat} {f : Region → Step UserProcess α}
      (hout : l.inside n offset size = false)
      (hf : ∀ r : Region, ¬ offset + size ≤ r.length → ∃ panic, (f r).Rejects u (.panic panic)) :
      ∃ stop, (UserProcess.region n >>= f).Rejects u stop ∧
        ((∃ panic, stop = .panic panic) ∨ region? n u = none) := by
    obtain hmissing | ⟨r, hr, hlength⟩ := h.of_outside hout
    · have hnone : region? n u = none := hs.region?_eq.trans hmissing
      refine ⟨.error .inactive, Rejects.bind ?_ f, Or.inr hnone⟩
      refine (yields_query _ u).rejects_bind ?_
      rw [hnone]
      exact rejects_fail _ u
    · obtain ⟨panic, hpanic⟩ := hf r hlength
      refine ⟨.panic panic, ?_, Or.inl ⟨panic, rfl⟩⟩
      have hfound : (UserProcess.region n).Yields u r u #[] := by
        refine (yields_query _ u).bind_silent ?_
        rw [hs.region?_eq, hr]
        exact Yields.pure r u
      exact hfound.rejects_bind hpanic
  cases x with
  | allocate size => cases ha
  | tick => cases ha
  | readByte n offset =>
    obtain ⟨stop, hstop, hwhy⟩ := hrejected (Ledger.inside_eq_false ha)
      fun r hr => (rejects_readByte host hr u).imp fun _ hpanic => hpanic.bind _
    exact ⟨stop, hstop, hwhy.imp_right fun hnone => ⟨n, rfl, hnone⟩⟩
  | writeByte n offset b =>
    obtain ⟨stop, hstop, hwhy⟩ := hrejected (Ledger.inside_eq_false ha)
      fun r hr => (rejects_writeByte host hr b u).imp fun _ hpanic => hpanic.bind _
    exact ⟨stop, hstop, hwhy.imp_right fun hnone => ⟨n, rfl, hnone⟩⟩
  | readWord n index =>
    obtain ⟨stop, hstop, hwhy⟩ := hrejected (Ledger.inside_eq_false ha)
      fun r hr => (rejects_readWord host hr u).imp fun _ hpanic => hpanic.bind _
    exact ⟨stop, hstop, hwhy.imp_right fun hnone => ⟨n, rfl, hnone⟩⟩
  | writeWord n index w =>
    obtain ⟨stop, hstop, hwhy⟩ := hrejected (Ledger.inside_eq_false ha)
      fun r hr => (rejects_writeWord host hr w u).imp fun _ hpanic => hpanic.bind _
    exact ⟨stop, hstop, hwhy.imp_right fun hnone => ⟨n, rfl, hnone⟩⟩

end Agrees

/-! ## Uses in a row -/

/-- The ledger after uses in a row. -/
def Ledger.nextAll (l : Ledger) (uses : List Use) : Ledger := uses.foldl next l

/-- The process after uses in a row. It goes on after a use that was rejected. -/
def useAll (host : Host) (u : UserProcess) (uses : List Use) : UserProcess :=
  u.performAll (uses.map fun x => (host, .use x))

/-- The process is seen as `l` has it. -/
def Seen (u : UserProcess) (l : Ledger) : Prop := ∃ v place, u.Shows v ∧ Agrees l v place

/-- A session that was just started is seen as the empty ledger. -/
theorem seen_begun {memory : Memory} (hf : Memory.Fresh host config memory)
    (hc : config.validate = .ok ()) (u : UserProcess) (pager : Pager) :
    (u.begun memory pager).Seen {} := by
  refine ⟨_, fun _ => 0, shows_begun hf hc u pager, ?_⟩
  exact
    { used := rfl
      bounded := Nat.zero_le _
      count := rfl
      region := nofun
      below := nofun
      apart := nofun
      bytes := nofun
      unused := fun _ => rfl
      unwritten := fun _ => rfl }

namespace Seen

/-- The process gives the answers of the ledger. -/
theorem exists_yields (hh : host.Obliging) (h : u.Seen l) {reply : Reply}
    (ha : l.answer x = some reply) :
    ∃ u' es, (x.step host).Yields u reply u' es ∧ u'.Seen (l.next x) := by
  obtain ⟨v, place, hu, hl⟩ := h
  obtain ⟨v', place', hx, hl'⟩ := hl.step hh ha
  obtain ⟨u', es, hyields, hu'⟩ := hx u hu
  exact ⟨u', es, hyields, v', place', hu', hl'⟩

theorem exists_rejects (h : u.Seen l) (ha : l.answer x = none) (host : Host) :
    ∃ stop, (x.step host).Rejects u stop ∧
      ((∃ panic, stop = .panic panic) ∨ ∃ n, x.target = some n ∧ region? n u = none) := by
  obtain ⟨v, place, hu, hl⟩ := h
  exact hl.reject hu ha host

/-- After a use the process is seen as the next ledger. -/
theorem perform (hh : host.Obliging) (h : u.Seen l) (x : Use) :
    (u.perform host (.use x)).Seen (l.next x) := by
  cases ha : l.answer x with
  | none =>
    -- a rejected use leaves neither a trace in the process nor in the ledger
    obtain ⟨stop, hstop, -⟩ := h.exists_rejects ha host
    have hsame : u.perform host (.use x) = u := (hstop.bind fun _ => pure ()).state_after #[]
    rw [hsame, Ledger.next, ha]
    exact h
  | some reply =>
    obtain ⟨u', es, hx, hu'⟩ := h.exists_yields hh ha
    have hnext : u.perform host (.use x) = u' := (hx.bind_last (Yields.pure () u')).state_after #[]
    rw [hnext]
    exact hu'

/-- After uses in a row the process is seen as the ledger that went along. -/
theorem useAll (hh : host.Obliging) (h : u.Seen l) (uses : List Use) :
    (u.useAll host uses).Seen (l.nextAll uses) := by
  induction uses generalizing u l with
  | nil => exact h
  | cons x uses ih => exact ih (h.perform hh x)

/-- A reply is handed out exactly if it is the answer of the ledger. -/
theorem replies_iff (hh : host.Obliging) (h : u.Seen l) (x : Use) (reply : Reply) :
    (∃ t es, (x.step host).Yields u reply t es) ↔ l.answer x = some reply := by
  constructor
  · rintro ⟨t, es, hx⟩
    cases ha : l.answer x with
    | none =>
      obtain ⟨stop, hstop, -⟩ := h.exists_rejects ha host
      cases (hx #[]).symm.trans (hstop #[])
    | some answer =>
      obtain ⟨t', es', hx', -⟩ := h.exists_yields hh ha
      rw [(hx'.unique hx).1]
  · intro ha
    obtain ⟨t, es, hx, -⟩ := h.exists_yields hh ha
    exact ⟨t, es, hx⟩

end Seen

/-- What holds of the regions of a process that the ledger accounts for. -/
structure KeepsApart (host : Host) (u : UserProcess) (l : Ledger) : Prop where
  /-- The program has the regions of the ledger, with their sizes. -/
  regions : ∀ n, (region? n u).map (·.length) = l.sizes[n]?
  /-- A region ends before the next one starts. -/
  disjoint : ∀ {m n r r'}, m < n → region? m u = some r → region? n u = some r' →
    r.start.toNat + r.length ≤ r'.start.toNat
  /-- A word inside a region has an address, and all of it is in one page. -/
  inPage : ∀ {n r index}, region? n u = some r →
    index * Region.wordSize + Region.wordSize ≤ r.length →
    ∃ a, r.wordAddress index = .ok a ∧ a.pageOffset.val + Region.wordSize ≤ pageSize
  /-- A use is accepted exactly if the ledger answers it, and the reply is that answer. -/
  replies : ∀ x reply, (∃ t es, (x.step host).Yields u reply t es) ↔ l.answer x = some reply
  /-- An access to a region that the ledger does not answer panics and leaves no trace. -/
  rejects : ∀ {x : Use} {n r}, x.target = some n → region? n u = some r → l.answer x = none →
    ∃ panic, (x.step host).Rejects u (.panic panic)
  /-- An access to one region does not show in what is seen through another. -/
  unseen : ∀ {x y : Use} {m n}, x.target = some m → y.target = some n → m ≠ n → ∀ reply,
    (∃ t es, (y.step host).Yields (u.perform host (.use x)) reply t es) ↔
      ∃ t es, (y.step host).Yields u reply t es

theorem Seen.keepsApart (hh : host.Obliging) (h : u.Seen l) : KeepsApart host u l where
  regions n := by
    obtain ⟨v, place, ⟨s, hs⟩, hl⟩ := h
    rw [hs.region?_eq]
    cases hn : v.regions[n]? with
    | none =>
      rw [Array.getElem?_eq_none_iff, hl.count, ← List.getElem?_eq_none_iff] at hn
      rw [hn, Option.map_none]
    | some r => exact (hl.lies hn).1.symm
  disjoint {m n r r'} hmn hm hn := by
    obtain ⟨v, place, ⟨s, hs⟩, hl⟩ := h
    rw [hs.region?_eq] at hm hn
    obtain ⟨hm, hlies⟩ := hl.lies hm
    obtain ⟨hn, hlies'⟩ := hl.lies hn
    have hapart := hl.apart hmn hm hn
    rw [hlies.start, hlies'.start]
    omega
  inPage {n r index} hr hin := by
    obtain ⟨v, place, ⟨s, hs⟩, hl⟩ := h
    rw [hs.region?_eq] at hr
    obtain ⟨a, ha, -, -, hpage⟩ := (hl.lies hr).2.exists_wordAddress hin
    exact ⟨a, ha, hpage⟩
  replies := h.replies_iff hh
  rejects {x n r} hx hr ha := by
    obtain ⟨stop, hstop, ⟨panic, rfl⟩ | ⟨n', hx', hnone⟩⟩ := h.exists_rejects ha host
    · exact ⟨panic, hstop⟩
    · cases hx.symm.trans hx'
      cases hr.symm.trans hnone
  unseen {x y m n} hx hy hmn reply := by
    rw [(h.perform hh x).replies_iff hh, h.replies_iff hh, l.answer_next_of_apart hx hy hmn]

/-- A pager is started, from any valid configuration, in a process where the timer signal may be
raised at any moment. Whatever uses the program makes of it, the regions are kept apart: the process
replies as the ledger of the accepted uses says. -/
theorem keepsApart_of_uses (hidle : u.active = none) (hh : host.Welcoming)
    (hc : config.validate = .ok ()) :
    ∃ t es, (init host config).Yields u () t es ∧
      ∀ uses, KeepsApart host (t.useAll host uses) (({} : Ledger).nextAll uses) := by
  obtain ⟨memory, pager, es, hinit, hfresh⟩ := exists_begun hh hc hidle
  refine ⟨u.begun memory pager, es, hinit, fun uses => ?_⟩
  exact ((seen_begun hfresh hc u pager).useAll hh.toObliging uses).keepsApart hh.toObliging

/-- Two regions, with a budget of one page. A word of the first and a byte of the second are
replaced. The word is loaded as bytes, the byte as part of a word; a word that ends past its region
is not loaded. -/
theorem keepsApart_of_uses_words : ({ timing := [0, 1, 2] } : UserProcess).active = none ∧
    Host.willing.Welcoming ∧ ({ budget := 1 } : Config).validate = .ok () ∧
    ∃ t es, (init .willing { budget := 1 }).Yields { timing := [0, 1, 2] } () t es ∧
      let u := t.useAll .willing
        [.allocate 7, .allocate 8, .writeWord 0 0 (-2), .writeByte 1 1 9, .writeWord 0 1 5]
      (∃ v es, ((Use.readByte 0 1).step .willing).Yields u (.byte 255) v es) ∧
      (∃ v es, ((Use.readWord 1 0).step .willing).Yields u (.word 2304) v es) ∧
      ∃ panic, ((Use.readWord 0 1).step .willing).Rejects u (.panic panic) := by
  obtain ⟨t, es, hinit, hall⟩ := keepsApart_of_uses (u := { timing := [0, 1, 2] })
    rfl Host.welcoming_willing (show ({ budget := 1 } : Config).validate = .ok () from rfl)
  have hkept := hall
    [.allocate 7, .allocate 8, .writeWord 0 0 (-2), .writeByte 1 1 9, .writeWord 0 1 5]
  refine ⟨rfl, Host.welcoming_willing, rfl, t, es, hinit, ?_, ?_, ?_⟩
  · exact (hkept.replies _ _).mpr (by decide)
  · exact (hkept.replies _ _).mpr (by decide)
  · have hsize := hkept.regions 0
    obtain ⟨r, hr, -⟩ := Option.map_eq_some_iff.mp (hsize.trans rfl)
    exact hkept.rejects rfl hr (by decide)

end DemandPaging.UserProcess
