import GameTable.Formula.Error

/-!
# The functions of the language

The functions and methods that a formula may call, and how many arguments each takes. A method's
receiver is not counted.
-/

namespace GameTable.Formula

/-- Functions, called by name. -/
inductive Function where
  | roll
  | mod
  | sizeRank
  | getCondition
  | float
  | int
  | double
  | string
  | size
  | min
  | max
  | abs
  | has
  | stat
deriving DecidableEq, Repr

/-- Methods, called on a receiver. -/
inductive Method where
  | size
  | startsWith
  | endsWith
  | contains
  | lower
  | upper
deriving DecidableEq, Repr

namespace Function

def all : List Function :=
  [.roll, .mod, .sizeRank, .getCondition, .float, .int, .double, .string, .size, .min, .max, .abs,
   .has, .stat]

def name : Function → String
  | .roll => "roll"
  | .mod => "mod"
  | .sizeRank => "size_rank"
  | .getCondition => "get_condition"
  | .float => "float"
  | .int => "int"
  | .double => "double"
  | .string => "string"
  | .size => "size"
  | .min => "min"
  | .max => "max"
  | .abs => "abs"
  | .has => "has"
  | .stat => "stat"

def named? (name : String) : Option Function := all.find? (·.name = name)

/-- The least and the greatest number of arguments. -/
def arity : Function → Nat × Option Nat
  | .getCondition => (2, some 2)
  | .min | .max => (1, none)
  | .has => (1, some 2)
  | _ => (1, some 1)

end Function

namespace Method

def all : List Method := [.size, .startsWith, .endsWith, .contains, .lower, .upper]

def name : Method → String
  | .size => "size"
  | .startsWith => "startsWith"
  | .endsWith => "endsWith"
  | .contains => "contains"
  | .lower => "lower"
  | .upper => "upper"

def named? (name : String) : Option Method := all.find? (·.name = name)

/-- The least and the greatest number of arguments. -/
def arity : Method → Nat × Option Nat
  | .size | .lower | .upper => (0, some 0)
  | _ => (1, some 1)

end Method

/-- Whether a number of arguments is allowed. -/
def accepts (arity : Nat × Option Nat) (found : Nat) : Bool :=
  arity.1 ≤ found && arity.2.all (found ≤ ·)

end GameTable.Formula
