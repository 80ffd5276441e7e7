import GameTable.Decimal.Binary64
import GameTable.Integer

/-!
# Reading numbers

Integers and floats from decimal text. An integer is an optional sign and digits, and must lie in
the range asked for. A float is an optional sign, digits with an optional point, and an optional
exponent, or one of the names of infinity and not-a-number; its value is the float nearest to the
decimal. Stored documents are read by a second, cheaper rule: the digits as a float, scaled by
floating multiplication or division by a power of ten.
-/

namespace GameTable.Decimal

open GameTable.Binary64

def digitValue (c : Char) : Nat := c.toNat - '0'.toNat

/-- The value of a list of decimal digits. -/
def digitsValue (cs : List Char) : Nat :=
  cs.foldl (fun n c => 10 * n + digitValue c) 0

/-- A nonempty list of digits, as a number. -/
def readNat (cs : List Char) : Option Nat :=
  if cs.isEmpty || !cs.all Char.isDigit then none else some (digitsValue cs)

/-- An optional sign; true for a minus. -/
def readSign : List Char → Bool × List Char
  | '-' :: cs => (true, cs)
  | '+' :: cs => (false, cs)
  | cs => (false, cs)

def readInt (cs : List Char) : Option Int :=
  let (negative, digits) := readSign cs
  (readNat digits).map fun n => if negative then -(n : Int) else n

/-- An integer that fits 64 bits. -/
def readInteger (s : String) : Option Int :=
  (readInt s.toList).filter fun n => decide (Fits n)

/-- A number that is written without a sign is not negative. -/
theorem nonneg_of_readInteger {cs : List Char} {n : Int}
    (hsign : ∀ c ∈ cs.head?, c ≠ '-' ∧ c ≠ '+') (h : readInteger (.ofList cs) = some n) :
    0 ≤ n ∧ n ≤ maxInteger := by
  rw [readInteger, String.toList_ofList, Option.filter_eq_some_iff] at h
  obtain ⟨hread, hfits⟩ := h
  have hunsigned : readSign cs = (false, cs) := by
    rw [readSign.eq_def]
    split
    · exact absurd rfl (hsign '-' rfl).1
    · exact absurd rfl (hsign '+' rfl).2
    · rfl
  rw [readInt, hunsigned, Option.map_eq_some_iff] at hread
  obtain ⟨m, hm, hn⟩ := hread
  obtain rfl : m = n := hn
  obtain ⟨digits, -, hm⟩ := Option.bind_eq_some_iff.mp hm
  obtain rfl : (digits : Int) = m := Option.some.inj hm
  exact ⟨Int.natCast_nonneg digits, (of_decide_eq_true hfits).2⟩

/-- An unsigned number below `bound`; a plus sign is allowed, a minus sign is not. -/
def readBelow (bound : Nat) (s : String) : Option Nat :=
  let cs := s.toList
  let digits := match cs with
    | '+' :: rest => rest
    | _ => cs
  (readNat digits).filter (· < bound)

/-- The parts of a decimal text: the digits before and after the point and the exponent. -/
structure Parts where
  whole : List Char
  fraction : List Char
  exponent : Int
deriving DecidableEq, Repr

/-- Splits an unsigned decimal. A point needs a digit on at least one side, an exponent needs
digits. -/
def readParts (cs : List Char) : Option Parts :=
  let (whole, rest) := cs.span Char.isDigit
  let (fraction, rest) := match rest with
    | '.' :: rest => rest.span Char.isDigit
    | _ => ([], rest)
  if whole.isEmpty && fraction.isEmpty then none
  else match rest with
    | [] => some ⟨whole, fraction, 0⟩
    | e :: rest =>
      if e = 'e' || e = 'E' then
        (readInt rest).map fun n => ⟨whole, fraction, n⟩
      else none

/-- The float nearest to `d * 10 ^ p`. Decimals whose leading digit lies far outside the range of
floats are settled without computing the power. -/
def nearestDecimal (negative : Bool) (d : Nat) (p : Int) : Float :=
  let digits : Int := (Nat.toDigits 10 d).length
  if d = 0 || digits + p < -400 then nearest negative 0 1
  else if digits + p > 400 then nearest negative (Nat.pow 10 400) 1
  else nearest negative (d * pow10 p) (pow10 (-p))

/-- Reads a float, rounding to the nearest. -/
def readFloat (s : String) : Option Float :=
  let (negative, cs) := readSign s.toList
  let name := String.ofList (cs.map Char.toLower)
  if name = "nan" then some (0.0 / 0.0)
  else if name = "inf" || name = "infinity" then
    some (if negative then -1.0 / 0.0 else 1.0 / 0.0)
  else (readParts cs).map fun parts =>
    nearestDecimal negative (digitsValue (parts.whole ++ parts.fraction))
      (parts.exponent - parts.fraction.length)

/-- The float `10 ^ n`, for `n` up to 308. -/
def powerOfTen (n : Nat) : Float := nearest false (Nat.pow 10 n) 1

/-- Multiplies or divides by a power of ten. Exponents below the smallest power are divided off in
steps of 308 places, `steps` of them at most; nothing when the result is too large. -/
def scaleByTen (steps : Nat) (x : Float) (p : Int) : Option Float :=
  if p.natAbs ≤ 308 then
    if 0 ≤ p then
      let y := x * powerOfTen p.toNat
      if y.isInf then none else some y
    else some (x / powerOfTen p.natAbs)
  else if x == 0.0 then some x
  else if 0 ≤ p then none
  else match steps with
    | 0 => some 0.0
    | steps + 1 => scaleByTen steps (x / powerOfTen 308) (p + 308)

/-- Takes digits into a number as long as it stays below `2 ^ 64`; the rest is left over. -/
def takeDigits (n : Nat) : List Char → Nat × List Char
  | [] => (n, [])
  | c :: cs =>
    let next := 10 * n + digitValue c
    if next < Nat.pow 2 64 then takeDigits next cs else (n, c :: cs)

/-- The value of the number `whole.fraction * 10 ^ exponent` of a document. Digits past the range
of 64 bits only move the exponent. -/
def storedValue (negative : Bool) (parts : Parts) : Option Float :=
  let (n, restWhole) := takeDigits 0 parts.whole
  let (n, restFraction) := takeDigits n parts.fraction
  let taken := parts.fraction.length - restFraction.length
  let p := parts.exponent + restWhole.length - taken
  (scaleByTen 4 (nearest false n 1) p).map fun x => if negative then -x else x

example : readInteger "+12" = some 12 ∧ readInteger "9223372036854775808" = none
    ∧ readInteger "-9223372036854775808" = some minInteger ∧ readInteger "1_0" = none := by
  decide +kernel
example : readFloat "1e-400" = some 0.0 ∧ readFloat ".5" = some 0.5 ∧ readFloat "." = none
    ∧ readFloat "1.e2" = some 100.0 ∧ readFloat "-Infinity" = some (-1.0 / 0.0) := by
  decide +kernel

end GameTable.Decimal
