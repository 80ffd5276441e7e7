import GameTable.Dice.Throw
import GameTable.Random.ChaCha

/-!
# Rollers

A roller answers a dice expression with a total. It is the only source of chance in the engine,
so replacing it makes everything else predictable. Every roller checks the notation first; a
notation it refuses, or a script that has run out, leaves it as it was.
-/

namespace GameTable

open GameTable.Random

/-- Something that rolls dice and may change by it. -/
class Roller (ρ : Type) where
  roll : ρ → String → Except DiceError Int × ρ

/-- The rollers in use: one total for everything, a list of totals to be handed out in order, or
real dice over the seeded generator. -/
inductive DiceCup where
  | fixed (total : Int)
  | scripted (results : List Int)
  | seeded (stream : SeededStream)
deriving Repr, DecidableEq

namespace DiceCup

def ofSeed (seed : UInt64) : DiceCup := .seeded (.seeded seed)

/-- Rolls an expression that has been read. -/
def rollExpr (cup : DiceCup) (dice : String) (e : DiceExpr) : Except DiceError Int × DiceCup :=
  match cup with
  | .fixed total => (.ok total, cup)
  | .scripted [] => (.error (.scriptExhausted dice), cup)
  | .scripted (total :: rest) => (.ok total, .scripted rest)
  | .seeded stream =>
    let (total, stream) := e.throw drawFace stream
    (total, .seeded stream)

def roll (cup : DiceCup) (dice : String) : Except DiceError Int × DiceCup :=
  match DiceExpr.parse dice with
  | .error e => (.error e, cup)
  | .ok e => cup.rollExpr dice e

instance : Roller DiceCup := ⟨roll⟩

/-- Adds a total at the end of a script; other rollers have none. -/
def push (cup : DiceCup) (total : Int) : DiceCup :=
  match cup with
  | .scripted results => .scripted (results ++ [total])
  | _ => cup

/-- How many totals a script still holds. -/
def remaining : DiceCup → Nat
  | .scripted results => results.length
  | _ => 0

end DiceCup

end GameTable
