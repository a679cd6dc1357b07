/-!
# The keystream block

Blocks of sixteen words produced from a key of eight words and a block number:
the ChaCha permutation with twelve rounds, fed forward into its input. The
block number fills two words and the last two words are zero.
-/

namespace DemandPaging.Random

/-- A secret key. -/
abbrev Key := Vector UInt32 8

/-- Words hold the naturals below this bound. -/
abbrev cipherWordLimit : Nat := 4294967296

/-- The words of one block. -/
abbrev Block := Vector UInt32 16

/-- `x` with its bits moved `n` places to the left, around the word. -/
def rotateLeft (x n : UInt32) : UInt32 := x <<< n ||| x >>> (32 - n)

/-- `x` with its bits moved `n` places to the right, around the word. -/
def rotateRight (x n : UInt32) : UInt32 := x >>> n ||| x <<< (32 - n)

/-- Add one word to another and mix the sum into a third one. -/
def mix (b : Block) (target source carried : Fin 16) (turn : UInt32) : Block :=
  let b := b.set target (b[target] + b[source])
  b.set carried (rotateLeft (b[carried] ^^^ b[target]) turn)

/-- Mix four words of a block. -/
def quarterRound (i j k l : Fin 16) (b : Block) : Block :=
  mix (mix (mix (mix b i j l 16) k l j 12) i j l 8) k l j 7

/-- Mix the columns of a block, then its diagonals. -/
def doubleRound (b : Block) : Block :=
  let columns := quarterRound 3 7 11 15 (quarterRound 2 6 10 14
    (quarterRound 1 5 9 13 (quarterRound 0 4 8 12 b)))
  quarterRound 3 4 9 14 (quarterRound 2 7 8 13
    (quarterRound 1 6 11 12 (quarterRound 0 5 10 15 columns)))

/-- The input of the permutation for block number `n`. -/
def initialBlock (key : Key) (n : Nat) : Block :=
  (#v[0x61707865, 0x3320646e, 0x79622d32, 0x6b206574] : Vector UInt32 4) ++ key ++
    (#v[UInt32.ofNat n, UInt32.ofNat (n / cipherWordLimit), 0, 0] : Vector UInt32 4)

/-- Block number `n` of the keystream of `key`. -/
def keystreamBlock (key : Key) (n : Nat) : Block :=
  let start := initialBlock key n
  (Nat.repeat doubleRound 6 start).zipWith (· + ·) start

/-- The successor of a seed state. -/
def nextSeed (s : UInt64) : UInt64 := s * 6364136223846793005 + 11634580027462260723

/-- The key word of a seed state: its high bits, turned by its highest ones. -/
def seedWord (s : UInt64) : UInt32 :=
  rotateRight (((s >>> 18) ^^^ s) >>> 27).toUInt32 (s >>> 59).toUInt32

/-- The key grown from a seed. -/
def keyOfSeed (seed : UInt64) : Key :=
  Vector.ofFn fun i => seedWord (Nat.repeat nextSeed (i.val + 1) seed)

end DemandPaging.Random
