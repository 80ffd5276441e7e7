import GameTable.Severity
import GameTable.Text.Blank
import GameTable.Decimal.Reading
import GameTable.Value.Printer

/-!
# Dice notation

A dice expression such as `2d20kh1+5` is a signed sum of terms. A term is a constant, or a number
of dice with as many sides each, of which all or only the highest or lowest few count. Blanks and
letter case do not matter. `DiceExpr.parse` reads the notation; the counts are limited so that a
single roll stays small.

Totals are integers of 64 bits. The terms are added up from left to right, and a sum on the way
that does not fit is a fault.
-/

namespace GameTable

/-- The most dice in one term. -/
def maxDice : Nat := 1000

/-- The most sides of one die. -/
def maxSides : Nat := 1000

/-- Why dice cannot be rolled. The last of these is not a refusal: a sum beyond 64 bits is a fault,
and a program that meets it stops. -/
inductive DiceError where
  | empty
  | invalidTerm (term : String)
  | tooManyDice (term : String)
  | invalidSides (term : String)
  | invalidKeep (term : String) (keep count : Nat)
  | scriptExhausted (dice : String)
  /-- A sum does not fit 64 bits. -/
  | overflow
deriving DecidableEq, Repr

namespace DiceError

def message : DiceError → String
  | .empty => "empty dice expression"
  | .invalidTerm term => "invalid dice term '" ++ term ++ "'"
  | .tooManyDice term => "too many dice in '" ++ term ++ "' (max 1000)"
  | .invalidSides term => "die in '" ++ term ++ "' must have between 1 and 1000 sides"
  | .invalidKeep term keep count =>
    "cannot keep " ++ toString keep ++ " of " ++ toString count ++ " dice in '" ++ term ++ "'"
  | .scriptExhausted dice => "scripted roller has no more results for '" ++ dice ++ "'"
  | .overflow => "attempt to add with overflow"

def code : DiceError → String
  | .empty => "DICE_EMPTY"
  | .invalidTerm _ => "DICE_INVALID_TERM"
  | .tooManyDice _ => "DICE_TOO_MANY"
  | .invalidSides _ => "DICE_INVALID_SIDES"
  | .invalidKeep .. => "DICE_INVALID_KEEP"
  | .scriptExhausted _ => "DICE_SCRIPT_EXHAUSTED"
  | .overflow => "DICE_OVERFLOW"

def severity : DiceError → Severity
  | .scriptExhausted _ => .internal
  | .overflow => .fatal
  | _ => .validation

instance : Coded DiceError := ⟨code, severity, message⟩

end DiceError

/-- Which of the dice of a term count. -/
inductive Keep where
  | highest (n : Nat)
  | lowest (n : Nat)
deriving DecidableEq, Repr

/-- How many dice are kept. -/
def Keep.count : Keep → Nat
  | .highest n | .lowest n => n

inductive DiceTerm where
  | dice (count sides : Nat) (keep : Option Keep)
  | constant (n : Int)
deriving DecidableEq, Repr

/-- A term with its sign. -/
structure SignedTerm where
  negative : Bool
  term : DiceTerm
deriving DecidableEq, Repr

/-- A dice expression: the signed terms in order, and the cleaned text they were read from. -/
structure DiceExpr where
  terms : List SignedTerm
  source : String
deriving DecidableEq, Repr

namespace DiceTerm

/-- The part of a text before the first `c`, and the part after it if there is one. -/
def splitAtFirst (c : Char) (cs : List Char) : List Char × Option (List Char) :=
  match cs.dropWhile (· != c) with
  | [] => (cs.takeWhile (· != c), none)
  | _ :: after => (cs.takeWhile (· != c), some after)

/-- A number of 32 bits without a sign. -/
def readCount (cs : List Char) : Option Nat :=
  (Decimal.readNat cs).filter (· < Nat.pow 2 32)

/-- A number within a term. -/
def readNumber (term : String) (cs : List Char) : Except DiceError Nat :=
  match readCount cs with
  | some n => .ok n
  | none => .error (.invalidTerm term)

/-- A number that may be left out; it is one then. -/
def readOptional (term : String) (cs : List Char) : Except DiceError Nat :=
  if cs.isEmpty then .ok 1 else readNumber term cs

/-- How many dice there are. -/
def readDice (term : String) (cs : List Char) : Except DiceError Nat := do
  let count ← readOptional term cs
  if count ≤ maxDice then .ok count else .error (.tooManyDice term)

/-- How many sides the dice have. -/
def readSides (term : String) (cs : List Char) : Except DiceError Nat := do
  let sides ← readNumber term cs
  if 1 ≤ sides ∧ sides ≤ maxSides then .ok sides else .error (.invalidSides term)

/-- How many of the dice are kept. -/
def readKept (count : Nat) (term : String) (cs : List Char) : Except DiceError Nat := do
  let n ← readOptional term cs
  if 1 ≤ n ∧ n ≤ count then .ok n else .error (.invalidKeep term n count)

/-- What follows the sides of a die, without its `k`: `h` or `l` and how many. -/
def readKeep (count : Nat) (term : String) : List Char → Except DiceError Keep
  | 'h' :: digits => (readKept count term digits).map .highest
  | 'l' :: digits => (readKept count term digits).map .lowest
  | _ => .error (.invalidTerm term)

/-- Reads a term from the parts before and after its `d`. -/
def readThrow (term : String) (before after : List Char) : Except DiceError DiceTerm := do
  let count ← readDice term before
  let (sideText, suffix) := splitAtFirst 'k' after
  let sides ← readSides term sideText
  match suffix with
  | none => .ok (.dice count sides none)
  | some suffix => (readKeep count term suffix).map fun keep => .dice count sides (some keep)

/-- Reads one term without its sign. -/
def parse (cs : List Char) : Except DiceError DiceTerm :=
  match splitAtFirst 'd' cs with
  | (_, none) =>
    match Decimal.readInteger (.ofList cs) with
    | some n => .ok (.constant n)
    | none => .error (.invalidTerm (.ofList cs))
  | (before, some after) => readThrow (.ofList cs) before after

/-- The least and the greatest value of a term. -/
def bounds : DiceTerm → Int × Int
  | .constant n => (n, n)
  | .dice count sides keep =>
    let kept := (keep.map Keep.count).getD count
    (kept, kept * sides)

/-- The faces that count. -/
def keptFaces (faces : List Nat) : Option Keep → List Nat
  | none => faces
  | some (.highest n) => (faces.mergeSort fun a b => b ≤ a).take n
  | some (.lowest n) => (faces.mergeSort fun a b => a ≤ b).take n

/-- The value of a term whose dice show the given faces. -/
def value (faces : List Nat) : DiceTerm → Int
  | .constant n => n
  | .dice _ _ keep => ((keptFaces faces keep).foldr (· + ·) 0 : Nat)

end DiceTerm

namespace SignedTerm

/-- A value of the term, with the sign of the term. -/
def signed (t : SignedTerm) (n : Int) : Int := if t.negative then -n else n

/-- The least that the term adds to a total. -/
def least (t : SignedTerm) : Int := t.signed (if t.negative then t.term.bounds.2 else t.term.bounds.1)

/-- The most that the term adds to a total. -/
def greatest (t : SignedTerm) : Int :=
  t.signed (if t.negative then t.term.bounds.1 else t.term.bounds.2)

end SignedTerm

/-- The sum of two integers, if it fits 64 bits. -/
def addFitting (a b : Int) : Except DiceError Int :=
  if Fits (a + b) then .ok (a + b) else .error .overflow

namespace DiceExpr

/-- The text without blanks and in lower case. -/
def clean (s : String) : List Char :=
  (s.toList.filter fun c => !Text.isBlank c).map Char.toLower

/-- Reads the terms of a cleaned text. `negative` is the sign in force, `current` the term in
progress and `terms` what has been read. A sign ends a term; a sign after another is refused,
except that the first sign of all may follow plus signs. -/
def readTerms (source : String) (negative : Bool) (current : List Char)
    (terms : List SignedTerm) : List Char → Except DiceError (List SignedTerm)
  | [] =>
    if current.isEmpty then throw (.invalidTerm source)
    else return terms ++ [⟨negative, ← DiceTerm.parse current⟩]
  | c :: cs =>
    if c = '+' || c = '-' then
      if !current.isEmpty then do
        let term ← DiceTerm.parse current
        readTerms source (c = '-') [] (terms ++ [⟨negative, term⟩]) cs
      else if !terms.isEmpty || negative then throw (.invalidTerm source)
      else readTerms source (c = '-') [] terms cs
    else readTerms source negative (current ++ [c]) terms cs

/-- Reads dice notation. -/
def parse (s : String) : Except DiceError DiceExpr :=
  let cs := clean s
  let source := String.ofList cs
  if cs.isEmpty then throw .empty
  else return ⟨← readTerms source false [] [] cs, source⟩

/-- The sum of integers, added up from left to right. Every sum on the way has to fit 64 bits. -/
def total (xs : List Int) : Except DiceError Int := xs.foldlM addFitting 0

/-- The smallest possible total. -/
def least (e : DiceExpr) : Except DiceError Int := total (e.terms.map SignedTerm.least)

/-- The largest possible total. -/
def greatest (e : DiceExpr) : Except DiceError Int := total (e.terms.map SignedTerm.greatest)

end DiceExpr

example : (DiceExpr.parse " 2D20 kh1 - 3").toOption.map (·.terms)
    = some [⟨false, .dice 2 20 (some (.highest 1))⟩, ⟨true, .constant 3⟩] := by decide +kernel
example : DiceExpr.parse "1d4+-2" = .error (.invalidTerm "1d4+-2") := by rfl

end GameTable
