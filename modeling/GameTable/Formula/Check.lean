import GameTable.Formula.Expr
import GameTable.Formula.Function

/-!
# Checking a formula

A tree is accepted when every function and method in it exists and has an allowed number of
arguments, and when `has` with one argument is given a field selection. The first fault in
reading order is the one reported; a call is checked before its arguments. Names are not checked:
which of them have values depends on where the formula is evaluated.
-/

namespace GameTable.Formula

/-- Whether a call is allowed, its arguments apart. -/
def checkArity (name : String) (arity? : Option (Nat × Option Nat)) (found : Nat) :
    Except FormulaError Unit :=
  match arity? with
  | none => .error (.unknownFunction name)
  | some arity =>
    if accepts arity found then .ok () else .error (.arity name arity.1 arity.2 found)

/-- Whether the argument of `has` selects a field, where there is only one. -/
def checkSelection (name : String) (args : List Expr) : Except FormulaError Unit :=
  match args with
  | [.member ..] => .ok ()
  | [_] => if name = "has" then .error (.type .fieldSelection) else .ok ()
  | _ => .ok ()

mutual

def check : Expr → Except FormulaError Unit
  | .literal _ | .ident _ => .ok ()
  | .list items => checkAll items
  | .map entries => checkEntries entries
  | .member target _ => check target
  | .index target position => do
    check target
    check position
  | .call name args => do
    checkArity name ((Function.named? name).map (·.arity)) args.length
    checkSelection name args
    checkAll args
  | .method target name args => do
    checkArity name ((Method.named? name).map (·.arity)) args.length
    check target
    checkAll args
  | .comprehension target _ _ body => do
    check target
    check body
  | .unary _ operand => check operand
  | .binary _ lhs rhs => do
    check lhs
    check rhs
  | .conditional cond yes no => do
    check cond
    check yes
    check no

def checkAll : List Expr → Except FormulaError Unit
  | [] => .ok ()
  | e :: rest => do
    check e
    checkAll rest

def checkEntries : List (Expr × Expr) → Except FormulaError Unit
  | [] => .ok ()
  | (k, v) :: rest => do
    check k
    check v
    checkEntries rest

end

end GameTable.Formula
