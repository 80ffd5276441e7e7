import GameTable.Dice.Expr

/-!
# Throwing dice

A throw takes its faces from a source that hands out one face at a time: given the sides of a
die, the source answers with a face and its own next state. The dice of an expression are drawn
term by term from left to right, whatever is kept of them afterwards.
-/

namespace GameTable

/-- Draws `count` faces in order. -/
def drawFaces {σ : Type} (draw : Nat → σ → Nat × σ) (sides : Nat) : Nat → σ → List Nat × σ
  | 0, s => ([], s)
  | count + 1, s =>
    let (face, s) := draw sides s
    let (faces, s) := drawFaces draw sides count s
    (face :: faces, s)

/-- Throws the dice of one term and takes its value. -/
def DiceTerm.throw {σ : Type} (draw : Nat → σ → Nat × σ) (t : DiceTerm) (s : σ) : Int × σ :=
  match t with
  | .constant n => (n, s)
  | .dice count sides keep =>
    let (faces, s) := drawFaces draw sides count s
    (value faces (.dice count sides keep), s)

/-- Throws signed terms in order and adds them to a sum. A sum that does not fit 64 bits ends the
throw. -/
def throwTerms {σ : Type} (draw : Nat → σ → Nat × σ) (sum : Int) :
    List SignedTerm → σ → Except DiceError Int × σ
  | [], s => (.ok sum, s)
  | t :: rest, s =>
    let (n, s) := t.term.throw draw s
    match addFitting sum (t.signed n) with
    | .ok sum => throwTerms draw sum rest s
    | .error e => (.error e, s)

/-- The total of an expression. -/
def DiceExpr.throw {σ : Type} (draw : Nat → σ → Nat × σ) (e : DiceExpr) (s : σ) :
    Except DiceError Int × σ :=
  throwTerms draw 0 e.terms s

end GameTable
