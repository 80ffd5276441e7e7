import GameTable.Dice.Expr
import GameTable.Formula.Token

/-!
# What can go wrong with a formula

A formula fails to compile because its text is malformed, nests too deep, or calls an unknown
function or one with the wrong number of arguments. It fails to run because of a name without a
value, operands of the wrong kind, a division by zero, an integer out of range, too many steps,
or dice that cannot be rolled. Each cause is a constructor; the wording is `message`.
-/

namespace GameTable.Formula

/-- Why a text is not a formula. -/
inductive Fault where
  | unexpectedCharacter (c : Char)
  | invalidNumber (text : String)
  | invalidEscape (c : Char)
  | unterminatedText
  | expected (what : String) (found : Token)
  | unexpected (found : Token)
  | unexpectedEnd
  | trailing (found : Token)
  | comprehensionArguments (name : String)
  | comprehensionVariable (name : String)
deriving DecidableEq

namespace Fault

/-- The token that the message quotes. -/
def quoted? : Fault → Option Token
  | .expected _ found | .unexpected found | .trailing found => some found
  | _ => none

def message : Fault → String
  | .unexpectedCharacter c => "unexpected character '" ++ c.toString ++ "'"
  | .invalidNumber text => "invalid number '" ++ text ++ "'"
  | .invalidEscape c => "invalid escape '\\" ++ c.toString ++ "'"
  | .unterminatedText => "unterminated string"
  | .expected what found => "expected " ++ what ++ ", found " ++ found.describe
  | .unexpected found => "unexpected " ++ found.describe
  | .unexpectedEnd => "unexpected end of formula"
  | .trailing found => "unexpected " ++ found.describe ++ " after expression"
  | .comprehensionArguments name => name ++ "() takes a variable and an expression"
  | .comprehensionVariable name => name ++ "() expects a variable name first"

end Fault

/-- Which operands an operation refuses. The kinds are given by name. -/
inductive TypeFault where
  | condition (op got : String)
  | negation (got : String)
  | mapKey (got : String)
  | diceText (got : String)
  | iteration (got : String)
  | field (name got : String)
  | listIndex (got : String)
  | indexed (got : String)
  | comparison (left op right : String)
  | membership (got : String)
  | arithmetic (op left right : String)
  | fieldSelection
  | intArgument (function got : String)
  | doubleText (text : String)
  | numberArgument (function got : String)
  | intConversion (kind text : String)
  | textReceiver (function got : String)
  | containsReceiver (got : String)
  | sized (got : String)
  | emptyExtremum (function : String)
  | extremumItem (function got : String)
  | prerequisite (got : String)
deriving DecidableEq, Repr

def TypeFault.message : TypeFault → String
  | .condition op got => "'" ++ op ++ "' expects bool, got " ++ got
  | .negation got => "cannot negate " ++ got
  | .mapKey got => "map keys must be strings, got " ++ got
  | .diceText got => "roll() expects dice notation, got " ++ got
  | .iteration got => "cannot iterate over " ++ got
  | .field name got => "no field '" ++ name ++ "' on " ++ got
  | .listIndex got => "list index must be int, got " ++ got
  | .indexed got => "cannot index " ++ got
  | .comparison left op right => "cannot compare " ++ left ++ " " ++ op ++ " " ++ right
  | .membership got => "'in' needs a list, map or string, got " ++ got
  | .arithmetic op left right => "cannot apply '" ++ op ++ "' to " ++ left ++ " and " ++ right
  | .fieldSelection => "has() with one argument needs a field selection"
  | .intArgument function got => function ++ "() expects an int, got " ++ got
  | .doubleText text => "cannot convert '" ++ text ++ "' to double"
  | .numberArgument function got => function ++ "() expects a number, got " ++ got
  | .intConversion kind text => "cannot convert " ++ kind ++ " '" ++ text ++ "' to int"
  | .textReceiver function got => function ++ "() needs a string receiver, got " ++ got
  | .containsReceiver got => "contains() needs a string, list or map receiver, got " ++ got
  | .sized got => "size() of " ++ got
  | .emptyExtremum function => function ++ "() of an empty list"
  | .extremumItem function got => function ++ "() expects numbers, got " ++ got
  | .prerequisite got => "prerequisite must return a bool, got " ++ got

end GameTable.Formula

namespace GameTable

/-- Why a formula does not compile, or does not evaluate. -/
inductive FormulaError where
  | malformed (position : Nat) (fault : Formula.Fault)
  | tooDeep (limit : Nat)
  | undeclared (name : String)
  | unknownFunction (name : String)
  /-- `most` is absent where there is no upper limit. -/
  | arity (name : String) (least : Nat) (most : Option Nat) (found : Nat)
  | type (fault : Formula.TypeFault)
  | divisionByZero
  | overflow
  | stepLimit (limit : Nat)
  | dice (error : DiceError)
deriving DecidableEq

namespace FormulaError

/-- Whether the error shows without evaluating the formula. -/
def isCompileError : FormulaError → Bool
  | .malformed .. | .tooDeep _ | .unknownFunction _ | .arity .. => true
  | _ => false

/-- How many arguments a function takes, in words. -/
def describeArity (least : Nat) : Option Nat → String
  | none => "at least " ++ toString least
  | some most =>
    if least = most then toString least else toString least ++ " to " ++ toString most

def message : FormulaError → String
  | .malformed position fault => "syntax error at " ++ toString position ++ ": " ++ fault.message
  | .tooDeep limit => "expression nested deeper than " ++ toString limit
  | .undeclared name => "undeclared reference '" ++ name ++ "'"
  | .unknownFunction name => "unknown function '" ++ name ++ "'"
  | .arity name least most found =>
    name ++ "() takes " ++ describeArity least most ++ " argument(s), got " ++ toString found
  | .type fault => "type error: " ++ fault.message
  | .divisionByZero => "division by zero"
  | .overflow => "integer overflow"
  | .stepLimit limit => "evaluation exceeded " ++ toString limit ++ " steps"
  | .dice error => error.message

end FormulaError

end GameTable
