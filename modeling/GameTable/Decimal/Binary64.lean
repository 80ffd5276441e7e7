/-!
# The exact value of a float

A finite float is a sign, a natural mantissa and a power of two. `Parts.ofFloat` reads these off
the bits and `nearest` goes back: it rounds a quotient of natural numbers to the nearest float,
a tie going to the even mantissa. Truncation, conversion from integers and the remainder of a
division are exact calculations between the two, so none of them depends on how a machine
rounds.
-/

namespace GameTable.Binary64

/-- The power `2 ^ e` where `e` is not negative, and one elsewhere. So `2 ^ e` is always the
quotient of `pow2 e` and `pow2 (-e)`. -/
def pow2 (e : Int) : Nat := Nat.pow 2 e.toNat

/-- The same of ten. -/
def pow10 (p : Int) : Nat := Nat.pow 10 p.toNat

/-- What a float stands for; `finite s m e` is `m * 2 ^ e`, negated when `s`. -/
inductive Parts where
  | nan
  | infinite (negative : Bool)
  | finite (negative : Bool) (mantissa : Nat) (exponent : Int)
deriving DecidableEq, Repr

/-- Reads sign, exponent field and fraction off the bits. -/
def Parts.ofFloat (x : Float) : Parts :=
  let bits := x.toBits.toNat
  let negative := bits / Nat.pow 2 63 == 1
  let field : Nat := bits / Nat.pow 2 52 % Nat.pow 2 11
  let fraction : Nat := bits % Nat.pow 2 52
  if field = 2047 then
    if fraction = 0 then .infinite negative else .nan
  else if field = 0 then .finite negative fraction (-1074)
  else .finite negative (fraction + Nat.pow 2 52) ((field : Int) - 1075)

/-- The quotient rounded to the nearest natural number, a tie to the even one. -/
def roundDiv (num den : Nat) : Nat :=
  let q := num / den
  let twice := 2 * (num % den)
  if twice > den || (twice == den && q % 2 == 1) then q + 1 else q

/-- The largest `k` with `2 ^ k ≤ num / den`. -/
def floorLog2 (num den : Nat) : Int :=
  let k : Int := (num.log2 : Int) - den.log2
  if den * pow2 k ≤ num * pow2 (-k) then k else k - 1

/-- The float nearest to `num / den`; beyond the largest float it is infinite. The 52 bits under
the leading one are kept, fewer where the exponent would fall below the smallest. -/
def nearest (negative : Bool) (num den : Nat) : Float :=
  let sign := if negative then Nat.pow 2 63 else 0
  if num = 0 then .ofBits (.ofNat sign)
  else
    let e := max (floorLog2 num den - 52) (-1074)
    let m := roundDiv (num * pow2 (-e)) (den * pow2 e)
    let bits := (e + 1074).toNat * Nat.pow 2 52 + m
    .ofBits (.ofNat (sign + min bits (2047 * Nat.pow 2 52)))

/-- The float nearest to an integer. -/
def ofInt (n : Int) : Float := nearest (n < 0) n.natAbs 1

/-- The magnitude `m * 2 ^ e` rounded down to a natural number. -/
def floorMagnitude (m : Nat) (e : Int) : Nat :=
  m * pow2 e / pow2 (-e)

/-- The integer part, rounding toward zero; nothing for infinities and not-a-number. -/
def truncate (x : Float) : Option Int :=
  match Parts.ofFloat x with
  | .finite negative m e =>
    let n := floorMagnitude m e
    some (if negative then -(n : Int) else n)
  | _ => none

/-- Whether a finite float has nothing after the point. -/
def isWhole (x : Float) : Bool :=
  match Parts.ofFloat x with
  | .finite _ m e => m % pow2 (-e) == 0
  | _ => false

/-- The exact remainder of `x / y`, with the sign of `x`. -/
def remainder (x y : Float) : Float :=
  match Parts.ofFloat x, Parts.ofFloat y with
  | .finite negative m e, .finite _ m' e' =>
    if m' = 0 then 0.0 / 0.0
    else
      let low := min e e'
      let r := m * pow2 (e - low) % (m' * pow2 (e' - low))
      nearest negative (r * pow2 low) (pow2 (-low))
  | .finite .., .infinite _ => x
  | _, _ => 0.0 / 0.0

example : truncate (-3.9) = some (-3) ∧ truncate (1.0 / 0.0) = none := by decide +kernel
example : ofInt 9007199254740993 = 9007199254740992.0 ∧ ofInt (-1) = -1.0 := by decide +kernel
example : remainder (-7.5) 2.0 = -1.5 ∧ remainder 5.0 (1.0 / 0.0) = 5.0 := by decide +kernel
example : nearest false 1 10 = 0.1 ∧ nearest true 0 1 = -0.0 := by decide +kernel

end GameTable.Binary64
