import GameTable.Random.Word

/-!
# A generator with given words

Hands out a list of words and goes on with a congruential sequence from the last of them, so that
every draw has an answer. It counts the words taken.
-/

namespace GameTable.Random

structure ListedWords where
  words : List UInt32
  last : UInt32
  taken : Nat
deriving Repr, DecidableEq

namespace ListedWords

def ofList (words : List UInt32) : ListedWords := ⟨words, 0, 0⟩

def next (s : ListedWords) : UInt32 × ListedWords :=
  match s.words with
  | word :: rest => (word, ⟨rest, word, s.taken + 1⟩)
  | [] =>
    let word := s.last * 1664525 + 1013904223
    (word, ⟨[], word, s.taken + 1⟩)

instance : WordSource ListedWords := ⟨next⟩

end ListedWords

end GameTable.Random
