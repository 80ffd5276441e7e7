import GameTable.State.Entity
import GameTable.State.Loop

/-!
# The state of a session

What the events have made of the table: the entities by their ids, the loops by their names, and
the metadata, a document with named members. Nothing but events changes a state.
-/

namespace GameTable

structure State where
  entities : Dict Entity
  loops : Dict Loop
  metadata : Dict Json
deriving DecidableEq

namespace State

def empty : State := ⟨∅, ∅, ∅⟩

instance : Inhabited State := ⟨empty⟩

/-- The state before the first event. Of two entities with one id the later counts. -/
def genesis (entities : List Entity) : State :=
  { empty with entities := .ofList (entities.map fun e => (e.id, e)) }

/-- The metadata entry with the question that waits for an answer. -/
def pendingAsk : String := "pending_ask"

/-- The metadata entry with the outcome of the last check. -/
def lastCheck : String := "last_check"

/-- The metadata entry with the last decision on a question. -/
def lastAdjudication : String := "last_adjudication"

/-- The metadata entry that stops the players. -/
def frozen : String := "frozen"

def isFrozen (s : State) : Bool :=
  match s.metadata.get? frozen with
  | some (.bool b) => b
  | _ => false

def isLoopActive (s : State) (name : String) : Bool :=
  match s.loops.get? name with
  | some l => l.active
  | none => false

/-! ## Documents -/

def fieldNames : List String := ["entities", "loops", "metadata"]

def toJson (s : State) : Json :=
  .obj [("entities", .ofDict (s.entities.map Entity.toJson)),
    ("loops", .ofDict (s.loops.map Loop.toJson)), ("metadata", .ofDict s.metadata)]

/-- Reads a state. Every field may be missing. -/
def read? {τ : Type} [DocumentTree τ] (t : τ) : Option State := do
  let look ← Tree.record? fieldNames t
  return {
    entities := ← Tree.fieldOr look "entities" (Tree.dict? Entity.read?) ∅
    loops := ← Tree.fieldOr look "loops" (Tree.dict? Loop.read?) ∅
    metadata := ← Tree.fieldOr look "metadata" (Tree.dict? DocumentTree.document?) ∅ }

end State

end GameTable
