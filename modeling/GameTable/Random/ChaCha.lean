import GameTable.Random.Word

/-!
# The seeded generator

A seed of 64 bits is stretched to a key of eight words by a permuted congruential generator. The
key drives the ChaCha stream cipher with twelve rounds: block number `n` of the key stream is the
mixed state with `n` as its counter, and the generator hands out its sixteen words in order.
-/

namespace GameTable.Random

/-- One step of the congruential generator and the word made of the new state: the high bits are
folded and rotated by the topmost five. -/
def stretchStep (s : UInt64) : UInt32 × UInt64 :=
  let s := s * 6364136223846793005 + 11634580027462260723
  let x := (((s >>> 18) ^^^ s) >>> 27).toUInt32
  let r := (s >>> 59).toUInt32
  ((x >>> r) ||| (x <<< ((32 - r) &&& 31)), s)

/-- The first `n` words stretched from a seed. -/
def stretch : Nat → UInt64 → List UInt32
  | 0, _ => []
  | n + 1, s =>
    let (word, s) := stretchStep s
    word :: stretch n s

abbrev Block := Vector UInt32 16

def rotateLeft (x n : UInt32) : UInt32 := (x <<< n) ||| (x >>> (32 - n))

/-- Mixes four words of a block. -/
def quarterRound (b : Block) (i j k l : Fin 16) : Block :=
  let (x, y, z, w) := (b[i], b[j], b[k], b[l])
  let x := x + y
  let w := rotateLeft (w ^^^ x) 16
  let z := z + w
  let y := rotateLeft (y ^^^ z) 12
  let x := x + y
  let w := rotateLeft (w ^^^ x) 8
  let z := z + w
  let y := rotateLeft (y ^^^ z) 7
  (((b.set i x).set j y).set k z).set l w

/-- A round over the columns and a round over the diagonals. -/
def doubleRound (b : Block) : Block :=
  let b := quarterRound b 0 4 8 12
  let b := quarterRound b 1 5 9 13
  let b := quarterRound b 2 6 10 14
  let b := quarterRound b 3 7 11 15
  let b := quarterRound b 0 5 10 15
  let b := quarterRound b 1 6 11 12
  let b := quarterRound b 2 7 8 13
  quarterRound b 3 4 9 14

/-- Applies `doubleRound` `n` times. -/
def mixRounds : Nat → Block → Block
  | 0, b => b
  | n + 1, b => mixRounds n (doubleRound b)

/-- The state before mixing: four constants, the key, the counter, and a nonce of zero. -/
def initialBlock (key : Vector UInt32 8) (counter : UInt64) : Block :=
  #v[0x61707865, 0x3320646e, 0x79622d32, 0x6b206574,
     key[0], key[1], key[2], key[3], key[4], key[5], key[6], key[7],
     counter.toUInt32, (counter >>> 32).toUInt32, 0, 0]

/-- A block of the key stream. -/
def streamBlock (key : Vector UInt32 8) (counter : UInt64) : Block :=
  let b := initialBlock key counter
  (mixRounds 6 b).zipWith (· + ·) b

/-- The seeded generator: the key, the number of the next block, and what is left of the last. -/
structure SeededStream where
  key : Vector UInt32 8
  counter : UInt64
  pending : List UInt32
deriving Repr, DecidableEq

namespace SeededStream

def seeded (seed : UInt64) : SeededStream :=
  ⟨.ofFn fun i => (stretch 8 seed).getD i 0, 0, []⟩

/-- The next word, starting a new block when the last one is used up. -/
def next (s : SeededStream) : UInt32 × SeededStream :=
  match s.pending with
  | word :: rest => (word, { s with pending := rest })
  | [] =>
    match (streamBlock s.key s.counter).toList with
    | word :: rest => (word, { s with counter := s.counter + 1, pending := rest })
    | [] => (0, { s with counter := s.counter + 1 })

instance : WordSource SeededStream := ⟨next⟩

end SeededStream

end GameTable.Random
