import GameTable.Value.Basic
import GameTable.Decimal.Layout

/-!
# The text of a value

Messages show values without quotes: texts stand for themselves, lists in brackets, maps in
braces. `Value.display` writes null as `null`; `Value.text` is the same except that null alone is
the empty text, as a missing value should be when it is put into a sentence.
-/

namespace GameTable.Value

/-- The text of an integer. -/
def intText (n : Int) : String :=
  let digits := Nat.toDigits 10 n.natAbs
  .ofList (if n < 0 then '-' :: digits else digits)

mutual

def display : Value → String
  | .null => "null"
  | .bool b => if b then "true" else "false"
  | .int n => intText n
  | .double x => Decimal.plain.text x
  | .str s => s
  | .list items => "[" ++ displayItems items ++ "]"
  | .map entries => "\x7b" ++ displayEntries entries ++ "\x7d"

def displayItems : List Value → String
  | [] => ""
  | [v] => display v
  | v :: rest => display v ++ ", " ++ displayItems rest

def displayEntries : List (String × Value) → String
  | [] => ""
  | [(k, v)] => k ++ ": " ++ display v
  | (k, v) :: rest => k ++ ": " ++ display v ++ ", " ++ displayEntries rest

end

/-- The text of a value inside a sentence: nothing for null. -/
def text : Value → String
  | .null => ""
  | v => display v

example : display (.list [.null, .int (-3), .double 2.0, .str "a"]) = "[null, -3, 2, a]" := by
  decide +kernel

end GameTable.Value
