import GameTable.Dict
import GameTable.Decimal.Reading
import GameTable.Text.Blank

/-!
# Values

What a formula computes with. Entity views, parameters, step results and metadata all meet in one
formula, so there is one type for them: null, flags, integers, floats, texts, lists and
maps. The coercions at the end of this file are the ones shared by formulas, parameters and
events: a missing value counts as zero in arithmetic and as the empty text, and an integer may
also be given as a float or as decimal text.
-/

namespace GameTable

/-- A value. The entries of a map stand in the order of their names. -/
inductive Value where
  | null
  | bool (b : Bool)
  | int (n : Int)
  | double (x : Float)
  | str (s : String)
  | list (items : List Value)
  | map (entries : List (String × Value))

namespace Value

instance : Inhabited Value := ⟨.null⟩

mutual

/-- Sameness of values is decidable, entry by entry. Floats are the same when their bits are. -/
def decEq : (a b : Value) → Decidable (a = b)
  | .null, .null => isTrue rfl
  | .bool a, .bool b => decidable_of_iff (a = b) (by simp)
  | .int a, .int b => decidable_of_iff (a = b) (by simp)
  | .double a, .double b => decidable_of_iff (a = b) (by simp)
  | .str a, .str b => decidable_of_iff (a = b) (by simp)
  | .list a, .list b => @decidable_of_iff _ (a = b) (by simp) (decEqItems a b)
  | .map a, .map b => @decidable_of_iff _ (a = b) (by simp) (decEqEntries a b)
  | .null, .bool _ | .null, .int _ | .null, .double _ | .null, .str _ | .null, .list _
  | .null, .map _ | .bool _, .null | .bool _, .int _ | .bool _, .double _ | .bool _, .str _
  | .bool _, .list _ | .bool _, .map _ | .int _, .null | .int _, .bool _ | .int _, .double _
  | .int _, .str _ | .int _, .list _ | .int _, .map _ | .double _, .null | .double _, .bool _
  | .double _, .int _ | .double _, .str _ | .double _, .list _ | .double _, .map _ | .str _, .null
  | .str _, .bool _ | .str _, .int _ | .str _, .double _ | .str _, .list _ | .str _, .map _
  | .list _, .null | .list _, .bool _ | .list _, .int _ | .list _, .double _ | .list _, .str _
  | .list _, .map _ | .map _, .null | .map _, .bool _ | .map _, .int _ | .map _, .double _
  | .map _, .str _ | .map _, .list _ => isFalse (by simp)

def decEqItems : (a b : List Value) → Decidable (a = b)
  | [], [] => isTrue rfl
  | a :: as, b :: bs =>
    match decEq a b, decEqItems as bs with
    | isTrue h, isTrue h' => isTrue (by rw [h, h'])
    | isFalse h, _ => isFalse (by simp [h])
    | _, isFalse h => isFalse (by simp [h])
  | [], _ :: _ | _ :: _, [] => isFalse (by simp)

def decEqEntries : (a b : List (String × Value)) → Decidable (a = b)
  | [], [] => isTrue rfl
  | (k, a) :: as, (l, b) :: bs =>
    if hk : k = l then
      match decEq a b, decEqEntries as bs with
      | isTrue h, isTrue h' => isTrue (by rw [hk, h, h'])
      | isFalse h, _ => isFalse (by simp [h])
      | _, isFalse h => isFalse (by simp [h])
    else isFalse (by simp [hk])
  | [], _ :: _ | _ :: _, [] => isFalse (by simp)

end

instance : DecidableEq Value := decEq

/-- The map of a dictionary. -/
def ofDict (d : Dict Value) : Value := .map d.entries

/-- The map with the given entries, put into key order. -/
def ofEntries (l : List (String × Value)) : Value := .map (Entries.ofList l)

def ofStrings (xs : List String) : Value := .list (xs.map .str)

/-- The name of the kind of a value, as type errors give it. -/
def typeName : Value → String
  | .null => "null"
  | .bool _ => "bool"
  | .int _ => "int"
  | .double _ => "double"
  | .str _ => "string"
  | .list _ => "list"
  | .map _ => "map"

def isNull : Value → Bool
  | .null => true
  | _ => false

def bool? : Value → Option Bool
  | .bool b => some b
  | _ => none

def str? : Value → Option String
  | .str s => some s
  | _ => none

def list? : Value → Option (List Value)
  | .list items => some items
  | _ => none

def map? : Value → Option (List (String × Value))
  | .map entries => some entries
  | _ => none

/-- The entry of a map; other values have none. -/
def get? (v : Value) (k : String) : Option Value :=
  v.map?.bind (Entries.get? · k)

/-- The integer part of a float that lies between `-2 ^ 63` and `2 ^ 63`, both included. The upper
end itself is taken as the largest integer. -/
def intOfFloat? (x : Float) : Option Int := do
  let n ← Binary64.truncate x
  if minInteger ≤ n ∧ n ≤ maxInteger + 1 then some (saturate n) else none

/-- The value as an integer: integers, floats without their fraction, and decimal texts. -/
def toInt? : Value → Option Int
  | .int n => some n
  | .double x => intOfFloat? x
  | .str s => Decimal.readInteger (Text.trim s)
  | _ => none

/-- The value as a float in arithmetic; null is zero. -/
def toDouble? : Value → Option Float
  | .null => some 0.0
  | .int n => some (Binary64.ofInt n)
  | .double x => some x
  | _ => none

/-- Whether a value counts as set: nonzero, or not empty. -/
def truthy : Value → Bool
  | .null => false
  | .bool b => b
  | .int n => n != 0
  | .double x => x != 0.0
  | .str s => !s.isEmpty
  | .list items => !items.isEmpty
  | .map entries => !entries.isEmpty

end Value

end GameTable
