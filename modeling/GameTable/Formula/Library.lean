import GameTable.Formula.Function
import GameTable.Formula.Operator
import GameTable.Text.LetterCase

/-!
# What the functions compute

The functions and methods that depend on their arguments alone. Rolling dice and asking for a
field need more than the arguments and are evaluated elsewhere; called here, they count as
unknown.
-/

namespace GameTable.Formula

/-- The argument of a function on integers; a float counts if it is whole. -/
def intArgument (function : String) : Value → Outcome Int
  | .null => .ok 0
  | .int n => .ok n
  | .double x =>
    match Binary64.truncate x with
    | some n =>
      if Binary64.isWhole x then .ok (saturate n)
      else typeError (.intArgument function "double")
    | none => typeError (.intArgument function "double")
  | v => typeError (.intArgument function v.typeName)

/-- The ability modifier of a score: half of what it exceeds ten by, rounded down. -/
def modifier (score : Int) : Outcome Value := do
  let _ ← checkedInt (score - 10)
  checkedInt ((score - 10) / 2)

/-- The place of a size in the order of sizes; zero for anything else. -/
def sizeRank (size : String) : Int :=
  match Text.lowerAscii size with
  | "tiny" => 1
  | "small" => 2
  | "medium" => 3
  | "large" => 4
  | "huge" => 5
  | "gargantuan" => 6
  | _ => 0

/-- The first of the conditions in an entity's view that starts with a text, or the empty text. -/
def findCondition (entity start : Value) : String :=
  let conditions := ((entity.get? "conditions").bind Value.list?).getD []
  let start := (start.str?.getD "").toList
  ((conditions.filterMap Value.str?).find? fun c => start.isPrefixOf c.toList).getD ""

/-- How many items, entries or characters a value has. -/
def sizeOf : Value → Outcome Value
  | .null => .ok (.int 0)
  | .str s => .ok (.int s.length)
  | .list items => .ok (.int items.length)
  | .map entries => .ok (.int entries.length)
  | v => typeError (.sized v.typeName)

/-- A float read from a value: texts are parsed, other values converted. -/
def toDouble (function : String) : Value → Outcome Value
  | .str s =>
    match Decimal.readFloat (Text.trim s) with
    | some x => .ok (.double x)
    | none => typeError (.doubleText s)
  | v =>
    match v.toDouble? with
    | some x => .ok (.double x)
    | none => typeError (.numberArgument function v.typeName)

/-- An integer read from a value. -/
def toInt : Value → Outcome Value
  | .null => .ok (.int 0)
  | .bool b => .ok (.int (if b then 1 else 0))
  | v =>
    match v.toInt? with
    | some n => .ok (.int n)
    | none => typeError (.intConversion v.typeName v.display)

def absolute : Value → Outcome Value
  | .double x => .ok (.double x.abs)
  | v => do
    let n ← intArgument "abs" v
    checkedInt n.natAbs

/-- The better of two floats, where not-a-number is worse than anything and of two equal ones the
first stays. -/
def preferred (better : Float → Float → Bool) (best x : Float) : Float :=
  if best.isNaN then x else if x.isNaN then best else if better x best then x else best

/-- The smallest or greatest of numbers. Integers and nulls are compared exactly, and as floats as
soon as one of them is a float. -/
def extremum (function : Function) (items : List Value) : Outcome Value := do
  match items with
  | [] => typeError (.emptyExtremum function.name)
  | first :: _ =>
    match items.mapM exactInt? with
    | some ints =>
      let pick := if function = .min then min else max
      checkedInt (ints.foldl pick ((exactInt? first).getD 0))
    | none =>
      let floats ← items.mapM fun v =>
        match v.toDouble? with
        | some x => .ok x
        | none => typeError (.extremumItem function.name v.typeName)
      let better := if function = .min then (fun x y : Float => decide (x < y)) else fun x y => decide (y < x)
      match floats with
      | [] => .ok (.double 0.0)
      | x :: rest => .ok (.double (rest.foldl (preferred better) x))

/-- Calls a function on arguments that have been computed. -/
def callFunction (name : String) (args : List Value) : Outcome Value :=
  let first := args.headD .null
  match Function.named? name with
  | some .mod => do modifier (← intArgument "mod" first)
  | some .sizeRank => .ok (.int (sizeRank (first.str?.getD "")))
  | some .getCondition => .ok (.str (findCondition first ((args[1]?).getD .null)))
  | some .float => toDouble "float" first
  | some .double => toDouble "double" first
  | some .int => toInt first
  | some .string => .ok (.str first.text)
  | some .size => sizeOf first
  | some .abs => absolute first
  | some .min =>
    match args with
    | [.list items] => extremum .min items
    | _ => extremum .min args
  | some .max =>
    match args with
    | [.list items] => extremum .max items
    | _ => extremum .max args
  | some .stat => .ok first
  | some .roll | some .has | none => .error (.unknownFunction name)

/-- The text of a receiver; null is the empty text. -/
def receiverText (method : Method) : Value → Outcome String
  | .str s => .ok s
  | .null => .ok ""
  | v => typeError (.textReceiver method.name v.typeName)

/-- Whether a value contains the argument of `contains`. -/
def contains (target : Value) (args : List Value) : Outcome Value :=
  let arg := (args.head?.map Value.display).getD ""
  match target with
  | .str s => .ok (.bool (occursIn arg.toList s.toList))
  | .list items =>
    .ok (.bool (args.head?.any fun needle => items.any fun item => item.strictEq needle))
  | .map entries => .ok (.bool (Entries.get? entries arg).isSome)
  | .null => .ok (.bool false)
  | v => typeError (.containsReceiver v.typeName)

/-- Calls a method on a receiver and arguments that have been computed. -/
def callMethod (name : String) (target : Value) (args : List Value) : Outcome Value :=
  let arg := ((args.head?.map Value.display).getD "").toList
  match Method.named? name with
  | some .size => sizeOf target
  | some .lower => return .str (Text.lower (← receiverText .lower target))
  | some .upper => return .str (Text.upper (← receiverText .upper target))
  | some .startsWith => return .bool (arg.isPrefixOf (← receiverText .startsWith target).toList)
  | some .endsWith => return .bool (arg.isSuffixOf (← receiverText .endsWith target).toList)
  | some .contains => contains target args
  | none => .error (.unknownFunction name)

end GameTable.Formula
