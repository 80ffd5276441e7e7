import GameTable.Tree

/-!
# Entities

Whoever takes part: player characters, monsters, other figures. An entity has its identity, a set
of types, an ordered list of conditions, and named entries in sections. Five sections hold
numbers, two hold texts. What has been used up of a resource is kept apart from the resource in
the section `spent`.
-/

namespace GameTable

/-- The sections that hold numbers. -/
inductive NumberSection where
  | stats
  | resources
  | spent
  | proficiencies
  | inventory
deriving DecidableEq, Repr

/-- The sections that hold texts. -/
inductive TextSection where
  | classes
  | statuses
deriving DecidableEq, Repr

inductive Section where
  | numbers (s : NumberSection)
  | texts (s : TextSection)
deriving DecidableEq, Repr

namespace Section

def all : List Section :=
  [.numbers .stats, .numbers .resources, .numbers .spent, .numbers .proficiencies,
   .numbers .inventory, .texts .statuses, .texts .classes]

def name : Section → String
  | .numbers .stats => "stats"
  | .numbers .resources => "resources"
  | .numbers .spent => "spent"
  | .numbers .proficiencies => "proficiencies"
  | .numbers .inventory => "inventory"
  | .texts .classes => "classes"
  | .texts .statuses => "statuses"

/-- The section of a name; the case of the letters `a` to `z` does not matter. -/
def named? (s : String) : Option Section :=
  all.find? fun sec => sec.name = s.map Char.toLower

end Section

/-- A set of names. -/
abbrev Names := Dict Unit

namespace Names

def ofNames (xs : List String) : Names := .ofList (xs.map fun x => (x, ()))

end Names

structure Entity where
  id : String
  name : String
  types : Names
  classes : Dict String
  stats : Dict Int
  resources : Dict Int
  spent : Dict Int
  conditions : List String
  proficiencies : Dict Int
  statuses : Dict String
  inventory : Dict Int
deriving DecidableEq

namespace Entity

/-- An entity without any entries. -/
def blank (id name : String) : Entity := ⟨id, name, ∅, ∅, ∅, ∅, ∅, [], ∅, ∅, ∅⟩

instance : Inhabited Entity := ⟨.blank "" ""⟩

/-- The entries of a section of numbers. -/
def numbers (e : Entity) : NumberSection → Dict Int
  | .stats => e.stats
  | .resources => e.resources
  | .spent => e.spent
  | .proficiencies => e.proficiencies
  | .inventory => e.inventory

def setNumbers (e : Entity) (d : Dict Int) : NumberSection → Entity
  | .stats => { e with stats := d }
  | .resources => { e with resources := d }
  | .spent => { e with spent := d }
  | .proficiencies => { e with proficiencies := d }
  | .inventory => { e with inventory := d }

/-- The entries of a section of texts. -/
def texts (e : Entity) : TextSection → Dict String
  | .classes => e.classes
  | .statuses => e.statuses

def setTexts (e : Entity) (d : Dict String) : TextSection → Entity
  | .classes => { e with classes := d }
  | .statuses => { e with statuses := d }

/-- What is left of a resource. -/
def remaining (e : Entity) (key : String) : Int :=
  (e.resources.get? key).getD 0 - (e.spent.get? key).getD 0

def hasCondition (e : Entity) (condition : String) : Bool := condition ∈ e.conditions

/-- The first condition that starts with a text. -/
def conditionStarting? (e : Entity) (start : String) : Option String :=
  e.conditions.find? fun c => start.toList.isPrefixOf c.toList

def size (e : Entity) : String := (e.classes.get? "size").getD ""

def category (e : Entity) : String := (e.classes.get? "category").getD ""

/-! ## Documents -/

def fieldNames : List String :=
  ["id", "name", "types", "classes", "stats", "resources", "spent", "conditions",
   "proficiencies", "statuses", "inventory"]

/-- The document of a section of numbers. -/
def numbersToJson (d : Dict Int) : Json := .ofDict (d.map .int)

/-- The document of a section of texts. -/
def textsToJson (d : Dict String) : Json := .ofDict (d.map .str)

/-- The document of an entity, its fields in the order of the declaration. -/
def toJson (e : Entity) : Json :=
  .obj [("id", .str e.id), ("name", .str e.name), ("types", .ofStrings e.types.keys),
    ("classes", textsToJson e.classes), ("stats", numbersToJson e.stats),
    ("resources", numbersToJson e.resources), ("spent", numbersToJson e.spent),
    ("conditions", .ofStrings e.conditions), ("proficiencies", numbersToJson e.proficiencies),
    ("statuses", textsToJson e.statuses), ("inventory", numbersToJson e.inventory)]

/-- Reads an entity. Every field may be missing. -/
def read? {τ : Type} [Tree τ] (t : τ) : Option Entity := do
  let look ← Tree.record? fieldNames t
  let numbers := fun k => Tree.fieldOr look k (Tree.dict? Tree.integer64?) ∅
  let texts := fun k => Tree.fieldOr look k (Tree.dict? Tree.text?) ∅
  return {
    id := ← Tree.fieldOr look "id" Tree.text? ""
    name := ← Tree.fieldOr look "name" Tree.text? ""
    types := .ofNames (← Tree.fieldOr look "types" Tree.texts? [])
    classes := ← texts "classes"
    stats := ← numbers "stats"
    resources := ← numbers "resources"
    spent := ← numbers "spent"
    conditions := ← Tree.fieldOr look "conditions" Tree.texts? []
    proficiencies := ← numbers "proficiencies"
    statuses := ← texts "statuses"
    inventory := ← numbers "inventory" }

end Entity

end GameTable
