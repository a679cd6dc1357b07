import DemandPaging.Layout
import DemandPaging.Random.Cipher

/-!
# Random draws

A stream of random words and uniform draws from it. A draw below `n` takes a
word of `w` bits and keeps the high part of its product with `n`; words whose
low part falls beyond the largest multiple that treats every outcome alike are
passed over. The published method passes words over until it finds one to keep,
however long that takes. Here the search is cut off after `drawTries` words, so
that every draw ends; up to that point both give the same (`Draws.below_eq`).
-/

namespace DemandPaging.Random

/-- A position in a keystream. -/
structure Stream where
  /-- The key of the stream. -/
  key : Key
  /-- Words taken so far. -/
  taken : Nat
  /-- The block that holds the next word. -/
  block : Block
  deriving DecidableEq, Repr

namespace Stream

/-- The start of the keystream of `key`. -/
def ofKey (key : Key) : Stream := ⟨key, 0, keystreamBlock key 0⟩

/-- The stream grown from a seed. -/
def ofSeed (seed : UInt64) : Stream := ofKey (keyOfSeed seed)

/-- Take one word. -/
def next (s : Stream) : UInt32 × Stream :=
  (getElem s.block (s.taken % 16) (Nat.mod_lt _ (by decide)),
    { s with
      taken := s.taken + 1
      block := if s.taken % 16 = 15 then keystreamBlock s.key ((s.taken + 1) / 16) else s.block })

/-- The size of the words from which a draw is made. -/
inductive Width where
  /-- One word of the stream. -/
  | narrow
  /-- Two words of the stream, the low one first. -/
  | wide
  deriving DecidableEq, Repr

/-- Bits in a word of this size. -/
def Width.bits : Width → Nat
  | narrow => 32
  | wide => 64

/-- Words of this size hold the naturals below this bound. -/
def Width.limit : Width → Nat
  | narrow => cipherWordLimit
  | wide => wordLimit

/-- Take one word of the given size. -/
def word (w : Width) (s : Stream) : Nat × Stream :=
  match w with
  | .narrow => let (x, s) := s.next; (x.toNat, s)
  | .wide =>
    let (low, s) := s.next
    let (high, s) := s.next
    (low.toNat + cipherWordLimit * high.toNat, s)

/-- The largest low part with which a draw below `n` is kept. -/
def lastKept (bits n : Nat) : Nat := n <<< (bits - 1 - n.log2) - 1

/-- Draw below `n`, passing over at most `tries` words; after that the next word is kept in any case, which the
published method does not do. -/
def drawWithin (w : Width) (n : Nat) : Nat → Stream → Nat × Stream
  | 0, s => let (x, s) := s.word w; (x * n / w.limit, s)
  | tries + 1, s =>
    let (x, s) := s.word w
    if x * n % w.limit ≤ lastKept w.bits n then (x * n / w.limit, s)
    else drawWithin w n tries s

/-- Words that a draw may pass over, where the published method knows no bound. Each is passed over with a chance below
one half. -/
def drawTries : Nat := 1024

/-- A uniform draw below `n`. -/
def below (w : Width) (n : Nat) (s : Stream) : Nat × Stream := drawWithin w n drawTries s

/-- The published draw below `n`: from `s` on it passes over `passed` words and keeps the next one. This gives a number
and leaves a stream. -/
inductive Draws (w : Width) (n : Nat) : Nat → Stream → Nat × Stream → Prop where
  /-- The next word is kept. -/
  | kept {s : Stream} (h : (s.word w).1 * n % w.limit ≤ lastKept w.bits n) :
      Draws w n 0 s ((s.word w).1 * n / w.limit, (s.word w).2)
  /-- The next word is passed over. -/
  | passed {count : Nat} {s : Stream} {r : Nat × Stream}
      (h : ¬ (s.word w).1 * n % w.limit ≤ lastKept w.bits n) (rest : Draws w n count (s.word w).2 r) :
      Draws w n (count + 1) s r

theorem Draws.drawWithin_eq {w : Width} {n passed tries : Nat} {s : Stream} {r : Nat × Stream}
    (h : Draws w n passed s r) (hle : passed ≤ tries) : drawWithin w n tries s = r := by
  induction h generalizing tries with
  | kept hkept =>
    cases tries with
    | zero => rfl
    | succ tries => simp only [drawWithin, if_pos hkept]
  | passed hpassed rest ih =>
    cases tries with
    | zero => omega
    | succ tries =>
      simp only [drawWithin, if_neg hpassed]
      exact ih (by omega)

/-- A draw is the published one, unless that one passes over more words than a draw may. -/
theorem Draws.below_eq {w : Width} {n passed : Nat} {s : Stream} {r : Nat × Stream}
    (h : Draws w n passed s r) (hle : passed ≤ drawTries) : s.below w n = r :=
  h.drawWithin_eq hle

theorem word_lt (w : Width) (s : Stream) : (s.word w).1 < w.limit := by
  cases w with
  | narrow => exact s.next.1.toNat_lt
  | wide =>
    have low := s.next.1.toNat_lt
    have high := s.next.2.next.1.toNat_lt
    simp only [word, Width.limit, cipherWordLimit, wordLimit]
    omega

theorem drawWithin_lt (w : Width) {n : Nat} (h : 0 < n) (tries : Nat) (s : Stream) :
    (drawWithin w n tries s).1 < n := by
  have kept : ∀ s : Stream, (s.word w).1 * n / w.limit < n := fun s =>
    Nat.div_lt_of_lt_mul (Nat.mul_lt_mul_of_pos_right (s.word_lt w) h)
  induction tries generalizing s with
  | zero => exact kept s
  | succ tries ih =>
    simp only [drawWithin]
    split
    · exact kept s
    · exact ih _

/-- A draw stays below its bound. -/
theorem below_lt (w : Width) {n : Nat} (h : 0 < n) (s : Stream) : (s.below w n).1 < n :=
  drawWithin_lt w h drawTries s

end Stream

end DemandPaging.Random
