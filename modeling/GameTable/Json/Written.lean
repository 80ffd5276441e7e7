import GameTable.Json.Basic

/-!
# Documents as written

A text may follow the grammar of documents and still hold parts that no document has: a number
beyond the floats, a text with half a surrogate pair, collections nested too deeply. `Written` is
what reading such a text yields. An unreadable part makes the whole no document (`toJson?`), but a
record that is read from the tree is not troubled by unreadable parts that it ignores.
-/

namespace GameTable.Json

/-- A document as it stands in a text, members in the order of the text and repeated names
included. -/
inductive Written where
  | null
  | bool (b : Bool)
  | int (n : Int)
  | float (x : FiniteFloat)
  | str (s : String)
  | arr (items : List Written)
  | obj (members : List (String × Written))
  /-- A part that follows the grammar but stands for nothing. -/
  | unreadable
deriving Repr, Inhabited

namespace Written

mutual

/-- The document, if every part is readable. -/
def toJson? : Written → Option Json
  | .null => some .null
  | .bool b => some (.bool b)
  | .int n => some (.int n)
  | .float x => some (.float x)
  | .str s => some (.str s)
  | .arr items => (itemsToJson? items).map .arr
  | .obj members => (membersToJson? members).map .obj
  | .unreadable => none

def itemsToJson? : List Written → Option (List Json)
  | [] => some []
  | w :: rest => return (← toJson? w) :: (← itemsToJson? rest)

def membersToJson? : List (String × Written) → Option (List (String × Json))
  | [] => some []
  | (k, w) :: rest => return (k, ← toJson? w) :: (← membersToJson? rest)

end

end Written

end GameTable.Json
