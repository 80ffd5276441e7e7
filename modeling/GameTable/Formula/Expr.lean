import GameTable.Value.Basic

/-!
# Expressions

The tree of a formula. Function and method names stay names in the tree; which of them exist, and
with how many arguments, is checked when a formula is compiled.
-/

namespace GameTable.Formula

inductive UnaryOp where
  | not
  | neg
deriving DecidableEq, Repr

inductive BinaryOp where
  | add
  | sub
  | mul
  | div
  | rem
  | eq
  | ne
  | lt
  | le
  | gt
  | ge
  | in
  | and
  | or
deriving DecidableEq, Repr

def BinaryOp.symbol : BinaryOp → String
  | .add => "+"
  | .sub => "-"
  | .mul => "*"
  | .div => "/"
  | .rem => "%"
  | .eq => "=="
  | .ne => "!="
  | .lt => "<"
  | .le => "<="
  | .gt => ">"
  | .ge => ">="
  | .in => "in"
  | .and => "&&"
  | .or => "||"

/-- The comprehensions: does the body hold of some item, of every item, of which items, and what
is it for each item. -/
inductive Comprehension where
  | any
  | all
  | filter
  | map
deriving DecidableEq, Repr

def Comprehension.name : Comprehension → String
  | .any => "exists"
  | .all => "all"
  | .filter => "filter"
  | .map => "map"

def Comprehension.named? (name : String) : Option Comprehension :=
  [Comprehension.any, .all, .filter, .map].find? (·.name = name)

inductive Expr where
  | literal (v : Value)
  | ident (name : String)
  | list (items : List Expr)
  | map (entries : List (Expr × Expr))
  | member (target : Expr) (field : String)
  | index (target position : Expr)
  | call (name : String) (args : List Expr)
  | method (target : Expr) (name : String) (args : List Expr)
  | comprehension (target : Expr) (kind : Comprehension) (var : String) (body : Expr)
  | unary (op : UnaryOp) (operand : Expr)
  | binary (op : BinaryOp) (lhs rhs : Expr)
  | conditional (cond yes no : Expr)

instance : Inhabited Expr := ⟨.literal .null⟩

namespace Expr

mutual

/-- The levels of the tree; a leaf has one. -/
def height : Expr → Nat
  | .literal _ | .ident _ => 1
  | .list items => heightItems items + 1
  | .map entries => heightEntries entries + 1
  | .member target _ => target.height + 1
  | .index target position => max target.height position.height + 1
  | .call _ args => heightItems args + 1
  | .method target _ args => max target.height (heightItems args) + 1
  | .comprehension target _ _ body => max target.height body.height + 1
  | .unary _ operand => operand.height + 1
  | .binary _ lhs rhs => max lhs.height rhs.height + 1
  | .conditional cond yes no => max cond.height (max yes.height no.height) + 1

def heightItems : List Expr → Nat
  | [] => 0
  | e :: rest => max e.height (heightItems rest)

def heightEntries : List (Expr × Expr) → Nat
  | [] => 0
  | (k, v) :: rest => max (max k.height v.height) (heightEntries rest)

end

end Expr

end GameTable.Formula
