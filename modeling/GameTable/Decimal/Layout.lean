import GameTable.Decimal.Shortest

/-!
# How a float is written

All texts of a float share the shortest digits and differ in layout: which magnitudes are
written out with a point, whether a whole number keeps `.0`, whether a positive exponent has its
sign, and which way ties go. A `Layout` records these choices. The three layouts in use are the
text of a value in a message, the number in a stored document, and the literal in a syntax
message.
-/

namespace GameTable.Decimal

open GameTable.Binary64

/-- The choices in the text of a float. -/
structure Layout where
  /-- Decimal exponents written out with a point, as a half-open interval; absent when all are. -/
  positional : Option (Int × Int)
  /-- Whether a whole number is followed by `.0`. -/
  pointZero : Bool
  /-- Whether a positive exponent is written with its sign. -/
  plusExponent : Bool
  tie : Tie
deriving DecidableEq, Repr

/-- The text of a value: never an exponent, and whole numbers without a point. -/
def plain : Layout := ⟨none, false, false, .up⟩

/-- The number in a document: written out from `1e-5` up to but not including `1e16`. -/
def stored : Layout := ⟨some (-5, 16), true, true, .toEven⟩

/-- The literal in a syntax message: written out from `1e-4` up to but not including `1e16`, and
without the sign of the exponent. -/
def literal : Layout := ⟨some (-4, 16), true, false, .up⟩

/-- The text of the positive decimal `d * 10 ^ p`. -/
def Layout.magnitude (l : Layout) (d : Nat) (p : Int) : List Char :=
  let digits := Nat.toDigits 10 d
  let top : Int := digits.length - 1 + p
  let written := match l.positional with
    | none => true
    | some (least, beyond) => least ≤ top && top < beyond
  if written then
    if 0 ≤ p then
      digits ++ List.replicate p.toNat '0' ++ (if l.pointZero then ['.', '0'] else [])
    else if 0 ≤ top then
      digits.take (top + 1).toNat ++ ['.'] ++ digits.drop (top + 1).toNat
    else ['0', '.'] ++ List.replicate (-top - 1).toNat '0' ++ digits
  else
    let fraction := digits.drop 1
    digits.take 1 ++ (if fraction.isEmpty then [] else '.' :: fraction) ++ ['e']
      ++ (if top < 0 then ['-'] else if l.plusExponent then ['+'] else [])
      ++ Nat.toDigits 10 top.natAbs

/-- The text of a float under a layout. -/
def Layout.text (l : Layout) (x : Float) : String :=
  match Parts.ofFloat x with
  | .nan => "NaN"
  | .infinite negative => if negative then "-inf" else "inf"
  | .finite negative m e =>
    let body :=
      if m = 0 then '0' :: (if l.pointZero then ['.', '0'] else [])
      else
        let (d, p) := shortest l.tie m e
        l.magnitude d p
    .ofList (if negative then '-' :: body else body)

example : plain.text 0.1 = "0.1" ∧ plain.text 1e16 = "10000000000000000"
    ∧ plain.text (-0.0) = "-0" ∧ plain.text 1e-7 = "0.0000001" := by decide +kernel
example : stored.text 1e16 = "1e+16" ∧ stored.text 100.0 = "100.0"
    ∧ stored.text 0.00001 = "0.00001" ∧ stored.text 1.25e-10 = "1.25e-10" := by decide +kernel
example : literal.text 1e16 = "1e16" ∧ literal.text 1.5 = "1.5"
    ∧ literal.text 0.0001 = "0.0001" ∧ literal.text 0.00005 = "5e-5" := by decide +kernel

end GameTable.Decimal
