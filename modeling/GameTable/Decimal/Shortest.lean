import GameTable.Decimal.Binary64

/-!
# The fewest digits that read back

A float stands for every real number that rounds to it. Among the decimals in that interval
`shortest` takes those with the fewest digits, and of these the one nearest to the float. On the
grid of decimals with a given number of digits only the two neighbours of the float can be
nearest, so each grid needs two comparisons, made exactly in natural numbers. Seventeen digits
always suffice. An exact tie between two neighbours is settled by the caller's choice.
-/

namespace GameTable.Decimal

open GameTable.Binary64

/-- Which of two equally near decimals is written. -/
inductive Tie where
  | up
  | toEven
deriving DecidableEq, Repr

/-- The interval of reals that round to a float `m * 2 ^ e`, in quarters of its last place. -/
structure Quarters where
  low : Nat
  value : Nat
  high : Nat
  /-- Whether the ends themselves round to the float. -/
  closed : Bool

/-- Below a power of two the neighbour is only half as far away. -/
def Quarters.of (m : Nat) (e : Int) : Quarters :=
  let below := if m = Nat.pow 2 52 && e > -1074 then 1 else 2
  ⟨4 * m - below, 4 * m, 4 * m + 2, m % 2 == 0⟩

/-- How many decimal digits a natural number has. -/
def digitCount (n : Nat) : Nat := (Nat.toDigits 10 n).length

/-- The `k` with `10 ^ k ≤ m * 2 ^ e < 10 ^ (k + 1)`. The shift by 330 places makes the smallest
floats whole. -/
def floorLog10 (m : Nat) (e : Int) : Int :=
  if 0 ≤ e then (digitCount (m * pow2 e) : Int) - 1
  else (digitCount (m * Nat.pow 10 330 / pow2 (-e)) : Int) - 331

/-- The decimal on the grid of multiples of `10 ^ p` that reads back and is nearest, if there is
one. With `a` and `b` the grid point `c` is `c * a / b` quarters. -/
def nearestOnGrid (tie : Tie) (q : Quarters) (a b : Nat) : Option Nat :=
  let inside (c : Nat) : Bool :=
    if q.closed then q.low * b ≤ c * a && c * a ≤ q.high * b
    else q.low * b < c * a && c * a < q.high * b
  let c := q.value * b / a
  let down := q.value * b - c * a
  let up := (c + 1) * a - q.value * b
  let preferDown := down < up || (down == up && tie == .toEven && c % 2 == 0)
  let (first, second) := if preferDown then (c, c + 1) else (c + 1, c)
  if inside first then some first else if inside second then some second else none

/-- Tries grids from coarse to fine: `n` digits, then `n + 1`, and so on. A power of ten may be
the upper neighbour on the first grid and is written with its single digit. -/
def searchGrids (tie : Tie) (q : Quarters) (e top : Int) : List Nat → Option (Nat × Int)
  | [] => none
  | n :: rest =>
    let p := top - (n - 1)
    let a := pow10 p * pow2 (2 - e)
    let b := pow10 (-p) * pow2 (e - 2)
    match nearestOnGrid tie q a b with
    | some c => some (if c = Nat.pow 10 n then (1, p + n) else (c, p))
    | none => searchGrids tie q e top rest

/-- Digits `d` and exponent `p` of the shortest decimal `d * 10 ^ p` that reads back as the
positive float `m * 2 ^ e`. -/
def shortest (tie : Tie) (m : Nat) (e : Int) : Nat × Int :=
  (searchGrids tie (.of m e) e (floorLog10 m e) (List.range' 1 17)).getD (0, 0)

example : shortest .up 1 (-1074) = (5, -324) := by decide +kernel
example : shortest .up (Nat.pow 2 53 - 1) 971 = (17976931348623157, 292) := by decide +kernel
example : shortest .up 4503599627370497 (-2) = (11258999068426243, -1)
    ∧ shortest .toEven 4503599627370497 (-2) = (11258999068426242, -1) := by decide +kernel

end GameTable.Decimal
