import GameTable.Dict
import GameTable.Decimal.Binary64
import GameTable.Integer

/-!
# Documents

What is stored in the event log and in a state's metadata: null, flags, integers, finite floats,
texts, lists and objects. An object is a list of named members. `Json.normalized` puts the members
of every object in key order, the later of two equal names counting; a document read from text
keeps its members as they stood until then, because some readers have to notice a repeated name.
-/

namespace GameTable

/-- A float that is neither infinite nor not-a-number. -/
structure FiniteFloat where
  val : Float
  finite : val.isFinite = true
deriving DecidableEq

namespace FiniteFloat

instance : Repr FiniteFloat := ⟨fun x n => reprPrec x.val n⟩

def ofFloat? (x : Float) : Option FiniteFloat :=
  if h : x.isFinite = true then some ⟨x, h⟩ else none

end FiniteFloat

/-- A document. -/
inductive Json where
  | null
  | bool (b : Bool)
  | int (n : Int)
  | float (x : FiniteFloat)
  | str (s : String)
  | arr (items : List Json)
  | obj (members : List (String × Json))
deriving Repr

namespace Json

mutual

/-- Equality of documents is decidable, member by member. -/
def decEq : (a b : Json) → Decidable (a = b)
  | .null, .null => isTrue rfl
  | .bool a, .bool b => decidable_of_iff (a = b) (by simp)
  | .int a, .int b => decidable_of_iff (a = b) (by simp)
  | .float a, .float b => decidable_of_iff (a = b) (by simp)
  | .str a, .str b => decidable_of_iff (a = b) (by simp)
  | .arr a, .arr b => @decidable_of_iff _ (a = b) (by simp) (decEqItems a b)
  | .obj a, .obj b => @decidable_of_iff _ (a = b) (by simp) (decEqMembers a b)
  | .null, .bool _ | .null, .int _ | .null, .float _ | .null, .str _ | .null, .arr _
  | .null, .obj _ | .bool _, .null | .bool _, .int _ | .bool _, .float _ | .bool _, .str _
  | .bool _, .arr _ | .bool _, .obj _ | .int _, .null | .int _, .bool _ | .int _, .float _
  | .int _, .str _ | .int _, .arr _ | .int _, .obj _ | .float _, .null | .float _, .bool _
  | .float _, .int _ | .float _, .str _ | .float _, .arr _ | .float _, .obj _ | .str _, .null
  | .str _, .bool _ | .str _, .int _ | .str _, .float _ | .str _, .arr _ | .str _, .obj _
  | .arr _, .null | .arr _, .bool _ | .arr _, .int _ | .arr _, .float _ | .arr _, .str _
  | .arr _, .obj _ | .obj _, .null | .obj _, .bool _ | .obj _, .int _ | .obj _, .float _
  | .obj _, .str _ | .obj _, .arr _ => isFalse (by simp)

def decEqItems : (a b : List Json) → Decidable (a = b)
  | [], [] => isTrue rfl
  | a :: as, b :: bs =>
    match decEq a b, decEqItems as bs with
    | isTrue h, isTrue h' => isTrue (by rw [h, h'])
    | isFalse h, _ => isFalse (by simp [h])
    | _, isFalse h => isFalse (by simp [h])
  | [], _ :: _ | _ :: _, [] => isFalse (by simp)

def decEqMembers : (a b : List (String × Json)) → Decidable (a = b)
  | [], [] => isTrue rfl
  | (k, a) :: as, (l, b) :: bs =>
    if hk : k = l then
      match decEq a b, decEqMembers as bs with
      | isTrue h, isTrue h' => isTrue (by rw [hk, h, h'])
      | isFalse h, _ => isFalse (by simp [h])
      | _, isFalse h => isFalse (by simp [h])
    else isFalse (by simp [hk])
  | [], _ :: _ | _ :: _, [] => isFalse (by simp)

end

instance : DecidableEq Json := decEq

instance : Inhabited Json := ⟨.null⟩

/-- The document of a dictionary whose values are documents. -/
def ofDict (d : Dict Json) : Json := .obj d.entries

/-- The document of a list of texts. -/
def ofStrings (xs : List String) : Json := .arr (xs.map .str)

def isNull : Json → Bool
  | .null => true
  | _ => false

/-- The member named `k` of an object. -/
def member? : Json → String → Option Json
  | .obj members, k => Entries.get? members k
  | _, _ => none

def str? : Json → Option String
  | .str s => some s
  | _ => none

mutual

/-- Every object with its members in key order, the later of two equal names counting. -/
def normalized : Json → Json
  | .arr items => .arr (normalizedItems items)
  | .obj members => .obj (Entries.ofList (normalizedMembers members))
  | j => j

def normalizedItems : List Json → List Json
  | [] => []
  | j :: rest => normalized j :: normalizedItems rest

def normalizedMembers : List (String × Json) → List (String × Json)
  | [] => []
  | (k, j) :: rest => (k, normalized j) :: normalizedMembers rest

end

end Json

end GameTable
