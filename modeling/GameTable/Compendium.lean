import GameTable.State.Entity
import GameTable.Text.LetterCase
import GameTable.Value.Basic

/-!
# The compendium

What a game brings along besides its rules: the entities that take part from the start, and a
table of weapons. Weapons are looked up in lower case.
-/

namespace GameTable

structure Compendium where
  entities : List Entity
  weapons : Dict Value
deriving DecidableEq

namespace Compendium

def empty : Compendium := ⟨[], ∅⟩

instance : Inhabited Compendium := ⟨empty⟩

/-- A compendium with its entities by id and its weapons in lower case, later entries replacing
earlier ones. -/
def ofLists (entities : List Entity) (weapons : List (String × Value)) : Compendium :=
  ⟨(Dict.ofList (entities.map fun e => (e.id, e))).values,
    .ofList (weapons.map fun (name, w) => (Text.lower name, w))⟩

def entity? (c : Compendium) (id : String) : Option Entity := c.entities.find? (·.id = id)

def weapon? (c : Compendium) (name : String) : Option Value := c.weapons.get? (Text.lower name)

end Compendium

end GameTable
