/-!
# Fair faces from random words

A generator hands out words of 32 bits. A face of an `n`-sided die is the high half of the product
of a word with `n`. The words are refused whose product has a low half above a bound, the largest
below a multiple of `n` that is a shift of `n` itself; the refused words are those that would
make some faces likelier than others.
-/

namespace GameTable.Random

/-- Generators of 32-bit words. -/
class WordSource (σ : Type) where
  next : σ → UInt32 × σ

/-- How many words there are. -/
def wordCount : Nat := 4294967296

/-- The largest low half that is accepted for `sides` sides: the sides shifted to the top of the
word, less one. -/
def acceptedBelow (sides : Nat) : Nat :=
  (sides * Nat.pow 2 (31 - sides.log2) + (wordCount - 1)) % wordCount

/-- How many words are refused before the last one is taken anyway. Half of all words or more are
accepted, so this bound is not met by a generator that is worth the name. -/
def maxRefusals : Nat := 1000000

/-- Draws a face, refusing at most `fuel` words. -/
def drawFrom {σ : Type} [WordSource σ] (sides : Nat) : Nat → σ → Nat × σ
  | fuel, s =>
    let (word, s) := WordSource.next s
    let product := word.toNat * sides
    let face := product / wordCount + 1
    match fuel with
    | 0 => (face, s)
    | fuel + 1 =>
      if product % wordCount ≤ acceptedBelow sides then (face, s) else drawFrom sides fuel s

/-- Draws a face of a die with the given sides. -/
def drawFace {σ : Type} [WordSource σ] (sides : Nat) (s : σ) : Nat × σ :=
  drawFrom sides maxRefusals s

end GameTable.Random
