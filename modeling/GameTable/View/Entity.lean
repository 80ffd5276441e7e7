import GameTable.State.Entity
import GameTable.Value.Basic

/-!
# Entities as formulas see them

A formula sees an entity as a map of all its fields, with three more that are derived: its size,
its category, and how many actions it has left. An id without an entity is seen as an entity
without entries.
-/

namespace GameTable

namespace Entity

/-- The actions that are left; zero for an entity that has no such resource. -/
def actionsRemaining (e : Entity) : Int :=
  if e.resources.contains "actions" then e.remaining "actions" else 0

/-- A section of numbers as a map. -/
def numbersView (d : Dict Int) : Value := .ofDict (d.map .int)

/-- A section of texts as a map. -/
def textsView (d : Dict String) : Value := .ofDict (d.map .str)

def view (e : Entity) : Value :=
  .ofEntries [("id", .str e.id), ("name", .str e.name), ("types", .ofStrings e.types.keys),
    ("classes", textsView e.classes), ("stats", numbersView e.stats),
    ("resources", numbersView e.resources), ("spent", numbersView e.spent),
    ("conditions", .ofStrings e.conditions), ("proficiencies", numbersView e.proficiencies),
    ("statuses", textsView e.statuses), ("inventory", numbersView e.inventory),
    ("size", .str e.size), ("category", .str e.category),
    ("actions_remaining", .int e.actionsRemaining)]

end Entity

end GameTable
