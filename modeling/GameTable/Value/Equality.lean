import GameTable.Value.Basic

/-!
# Two equalities

Formulas compare values loosely: an integer equals the float of the same value, and null equals
everything that counts as unset. Searching a list for an item compares strictly: kinds must agree
as well. In both a float is compared as a number, so that not-a-number differs from itself.
-/

namespace GameTable.Value

mutual

/-- Equality as `==` sees it. -/
def looseEq : Value → Value → Bool
  | .null, v => !v.truthy
  | v, .null => !v.truthy
  | .int n, .double x => Binary64.ofInt n == x
  | .double x, .int n => Binary64.ofInt n == x
  | .list xs, .list ys => xs.length == ys.length && looseEqItems xs ys
  | .map xs, .map ys => xs.length == ys.length && looseEqEntries xs ys
  | .bool a, .bool b => a == b
  | .int a, .int b => a == b
  | .double a, .double b => a == b
  | .str a, .str b => a == b
  | _, _ => false

/-- Whether the items of two lists are equal pair by pair. -/
def looseEqItems : List Value → List Value → Bool
  | x :: xs, y :: ys => looseEq x y && looseEqItems xs ys
  | _, _ => true

/-- Whether every entry of the first map has an equal one of the same name in the second. -/
def looseEqEntries : List (String × Value) → List (String × Value) → Bool
  | [], _ => true
  | (k, x) :: xs, ys =>
    (match Entries.get? ys k with
      | some y => looseEq x y
      | none => false) && looseEqEntries xs ys

end

mutual

/-- Equality of kind and content. -/
def strictEq : Value → Value → Bool
  | .null, .null => true
  | .bool a, .bool b => a == b
  | .int a, .int b => a == b
  | .double a, .double b => a == b
  | .str a, .str b => a == b
  | .list xs, .list ys => strictEqItems xs ys
  | .map xs, .map ys => strictEqEntries xs ys
  | _, _ => false

def strictEqItems : List Value → List Value → Bool
  | [], [] => true
  | x :: xs, y :: ys => strictEq x y && strictEqItems xs ys
  | _, _ => false

def strictEqEntries : List (String × Value) → List (String × Value) → Bool
  | [], [] => true
  | (k, x) :: xs, (l, y) :: ys => k == l && strictEq x y && strictEqEntries xs ys
  | _, _ => false

end

end GameTable.Value
