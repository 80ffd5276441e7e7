import GameTable.Formula.Error
import GameTable.Formula.Expr
import GameTable.Value.Equality

/-!
# Operators

What the operators do with values that have been computed. Null counts as zero in arithmetic and
in orderings, as false in conditions, and as the empty text when joined to a text. Integers are
exact: a result outside 64 bits is an overflow, never a wrapped number. As soon as one operand is
a float the calculation is one of floats.
-/

namespace GameTable.Formula

open GameTable.Value (typeName)

abbrev Outcome (α : Type) := Except FormulaError α

def typeError {α : Type} (fault : TypeFault) : Outcome α := .error (.type fault)

/-- A condition: null is false, and nothing but flags and null will do. -/
def truth (op : String) : Value → Outcome Bool
  | .bool b => .ok b
  | .null => .ok false
  | v => typeError (.condition op v.typeName)

/-- An exact result, unless it leaves the range. -/
def checkedInt (n : Int) : Outcome Value :=
  if Fits n then .ok (.int n) else .error .overflow

/-- Integers and null, read as an integer. -/
def exactInt? : Value → Option Int
  | .int n => some n
  | .null => some 0
  | _ => none

/-! ## Signs and arithmetic -/

def negate : Value → Outcome Value
  | .null => .ok (.int 0)
  | .int n => checkedInt (-n)
  | .double x => .ok (.double (-x))
  | v => typeError (.negation v.typeName)

/-- Arithmetic on integers. Division truncates; a remainder is out of range where its quotient
is. -/
def intArithmetic (op : BinaryOp) (x y : Int) (mismatch : TypeFault) : Outcome Value :=
  match op with
  | .add => checkedInt (x + y)
  | .sub => checkedInt (x - y)
  | .mul => checkedInt (x * y)
  | .div => if y = 0 then .error .divisionByZero else checkedInt (x.tdiv y)
  | .rem =>
    if y = 0 then .error .divisionByZero
    else do
      let _ ← checkedInt (x.tdiv y)
      checkedInt (x.tmod y)
  | _ => typeError mismatch

/-- Arithmetic on floats. -/
def floatArithmetic (op : BinaryOp) (x y : Float) (mismatch : TypeFault) : Outcome Value :=
  match op with
  | .add => .ok (.double (x + y))
  | .sub => .ok (.double (x - y))
  | .mul => .ok (.double (x * y))
  | .div => if y == 0.0 then .error .divisionByZero else .ok (.double (x / y))
  | .rem => if y == 0.0 then .error .divisionByZero else .ok (.double (Binary64.remainder x y))
  | _ => typeError mismatch

def arithmetic (op : BinaryOp) (a b : Value) : Outcome Value :=
  let mismatch := TypeFault.arithmetic op.symbol a.typeName b.typeName
  match exactInt? a, exactInt? b with
  | some x, some y => intArithmetic op x y mismatch
  | _, _ =>
    match a.toDouble?, b.toDouble? with
    | some x, some y => floatArithmetic op x y mismatch
    | _, _ => typeError mismatch

def isScalar : Value → Bool
  | .list _ | .map _ => false
  | _ => true

/-- Addition also joins lists, and texts with anything that is not a list or a map. -/
def add (a b : Value) : Outcome Value :=
  match a, b with
  | .list xs, .list ys => .ok (.list (xs ++ ys))
  | .str s, v =>
    if isScalar v then .ok (.str (s ++ v.text)) else arithmetic .add (.str s) v
  | v, .str s =>
    if isScalar v then .ok (.str (v.text ++ s)) else arithmetic .add v (.str s)
  | a, b => arithmetic .add a b

/-! ## Comparison and membership -/

/-- The order of two floats; not-a-number has none. -/
def compareFloat? (x y : Float) : Option Ordering :=
  if x < y then some .lt else if y < x then some .gt else if x == y then some .eq else none

/-- The order of two values: numbers and null, texts and null, or flags. -/
def compareValues? (a b : Value) : Option Ordering :=
  match exactInt? a, exactInt? b with
  | some x, some y => some (compare x y)
  | _, _ =>
    match a.toDouble?, b.toDouble? with
    | some x, some y => compareFloat? x y
    | _, _ =>
      match a, b with
      | .str s, .str t => some (compare s t)
      | .str s, .null => some (compare s "")
      | .null, .str t => some (compare "" t)
      | .bool x, .bool y => some (compare x y)
      | _, _ => none

def compareValues (op : BinaryOp) (a b : Value) : Outcome Ordering :=
  match compareValues? a b with
  | some o => .ok o
  | none => typeError (.comparison a.typeName op.symbol b.typeName)

/-- Whether `part` occurs in a list of characters. -/
def occursIn (part : List Char) : List Char → Bool
  | [] => part.isEmpty
  | c :: cs => part.isPrefixOf (c :: cs) || occursIn part cs

/-- Whether a value is in a list, a key of a map, or a part of a text. -/
def membership (needle : Value) : Value → Outcome Bool
  | .list items => .ok (items.any fun item => item.looseEq needle)
  | .map entries => .ok (Entries.get? entries needle.text).isSome
  | .str s => .ok (occursIn needle.text.toList s.toList)
  | .null => .ok false
  | v => typeError (.membership v.typeName)

/-- The operators that compute both operands. The connectives appear here too, for the sake of
completeness; in a formula they are evaluated from left to right and stop early. -/
def applyBinary (op : BinaryOp) (a b : Value) : Outcome Value :=
  match op with
  | .eq => .ok (.bool (a.looseEq b))
  | .ne => .ok (.bool !(a.looseEq b))
  | .lt => return .bool (← compareValues op a b).isLT
  | .le => return .bool (← compareValues op a b).isLE
  | .gt => return .bool (← compareValues op a b).isGT
  | .ge => return .bool (← compareValues op a b).isGE
  | .in => return .bool (← membership a b)
  | .add => add a b
  | .sub | .mul | .div | .rem => arithmetic op a b
  | .and => do
    if ← truth "&&" a then return .bool (← truth "&&" b) else return .bool false
  | .or => do
    if ← truth "||" a then return .bool true else return .bool (← truth "||" b)

def applyUnary : UnaryOp → Value → Outcome Value
  | .not, v => return .bool !(← truth "!" v)
  | .neg, v => negate v

/-! ## Selection -/

/-- The field of a map; null where there is none. -/
def selectField (field : String) : Value → Outcome Value
  | .map entries => .ok ((Entries.get? entries field).getD .null)
  | .null => .ok .null
  | v => typeError (.field field v.typeName)

/-- The item of a list or the entry of a map; null where there is none. A list takes integers and
floats, but no text. -/
def selectIndex (target position : Value) : Outcome Value :=
  match target with
  | .null => .ok .null
  | .list items =>
    let place? := match position with
      | .str _ => none
      | v => v.toInt?
    match place? with
    | some i => .ok (if i < 0 then .null else (items[i.toNat]?).getD .null)
    | none => typeError (.listIndex position.typeName)
  | .map entries => .ok ((Entries.get? entries position.text).getD .null)
  | v => typeError (.indexed v.typeName)

/-- What a comprehension runs over: the items of a list, the keys of a map, nothing for null. -/
def iterated : Value → Outcome (List Value)
  | .list items => .ok items
  | .map entries => .ok (entries.map fun e => .str e.1)
  | .null => .ok []
  | v => typeError (.iteration v.typeName)

/-- The key of a map entry. -/
def keyText : Value → Outcome String
  | .str s => .ok s
  | .int n => .ok (Value.intText n)
  | .bool b => .ok (Value.display (.bool b))
  | v => typeError (.mapKey v.typeName)

end GameTable.Formula
