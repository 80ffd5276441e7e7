import GameTable.Value.Basic
import GameTable.Json.Basic

/-!
# Values and documents

A value is stored as a document and a stored document is read back as a value. Documents have no
infinities and no not-a-number, which become null; and values have no integers beyond the signed
range, which become floats. Everything else survives the round trip in both directions.
-/

namespace GameTable.Value

mutual

/-- The document that stores a value. -/
def toJson : Value → Json
  | .null => .null
  | .bool b => .bool b
  | .int n => .int n
  | .double x => (FiniteFloat.ofFloat? x).elim .null .float
  | .str s => .str s
  | .list items => .arr (itemsToJson items)
  | .map entries => .obj (entriesToJson entries)

def itemsToJson : List Value → List Json
  | [] => []
  | v :: rest => toJson v :: itemsToJson rest

def entriesToJson : List (String × Value) → List (String × Json)
  | [] => []
  | (k, v) :: rest => (k, toJson v) :: entriesToJson rest

end

mutual

/-- The value that a document stores. -/
def ofJson : Json → Value
  | .null => .null
  | .bool b => .bool b
  | .int n => if Fits n then .int n else .double (Binary64.ofInt n)
  | .float x => .double x.val
  | .str s => .str s
  | .arr items => .list (itemsOfJson items)
  | .obj members => .map (entriesOfJson members)

def itemsOfJson : List Json → List Value
  | [] => []
  | j :: rest => ofJson j :: itemsOfJson rest

def entriesOfJson : List (String × Json) → List (String × Value)
  | [] => []
  | (k, j) :: rest => (k, ofJson j) :: entriesOfJson rest

end

end GameTable.Value
