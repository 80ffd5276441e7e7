import GameTable.Command.Name
import GameTable.Dict
import GameTable.Value.Document

/-!
# Manifests

A manifest holds the rules of a game: the commands that it knows, what parameters they take, the
formulas that must hold before they run, and the formulas that they run. Some commands are for the
GM alone, and some may wait for the GM's approval.

The formulas of a command stand in three phases. The game phase runs once, the target phase once
for every target, and the actor phase once at the end. A step has a name, under which later steps
see its result, and may name the effect that its result has.
-/

namespace GameTable

/-- What a parameter may be. -/
inductive ParamType where
  | text
  | int
  | target
  | targetList
deriving DecidableEq, Repr

namespace ParamType

def all : List ParamType := [.text, .int, .target, .targetList]

def name : ParamType → String
  | .text => "string"
  | .int => "int"
  | .target => "target"
  | .targetList => "list<target>"

def named? (name : String) : Option ParamType := all.find? (·.name = name)

/-- Whether a parameter names entities. -/
def isTarget : ParamType → Bool
  | .target | .targetList => true
  | .text | .int => false

end ParamType

structure ParamDef where
  name : String
  type : ParamType
  required : Bool
deriving DecidableEq, Repr

/-- A formula that must hold before a command runs, and what is said if it does not. -/
structure PrereqDef where
  name : String
  formula : String
  error : String
deriving DecidableEq, Repr

/-- A formula that a command runs. Where no event is named the result is only kept for later
steps. The loop replaces the command's own in the events of the step. -/
structure StepDef where
  name : String
  formula : String
  event : String
  loop : Option String
deriving DecidableEq, Repr

structure CommandDef where
  name : String
  params : List ParamDef
  prereqs : List PrereqDef
  game : List StepDef
  targets : List StepDef
  actor : List StepDef
  hint : String
  help : String
  usage : String
  /-- The loop whose current actor alone may run the command while the loop is active. -/
  turn : Option String
deriving DecidableEq, Repr

structure Manifest where
  /-- The commands for the GM alone. -/
  gmCommands : List String
  /-- The commands that may wait for the GM's approval. -/
  adjudicated : List String
  commands : Dict CommandDef
deriving DecidableEq

namespace Manifest

def empty : Manifest := ⟨[], [], ∅⟩

instance : Inhabited Manifest := ⟨empty⟩

def command? (m : Manifest) (name : String) : Option CommandDef := m.commands.get? name

def isForGM (m : Manifest) (name : String) : Bool := name ∈ m.gmCommands

def isAdjudicated (m : Manifest) (name : String) : Bool := name ∈ m.adjudicated

/-- A command under its canonical name, which is also its own name unless it has one. -/
def canonicalEntry (key : String) (d : CommandDef) : String × CommandDef :=
  let key := canonicalName key
  (key, if d.name.isEmpty then { d with name := key } else d)

/-- The manifest with its commands under their canonical names. -/
def normalized (m : Manifest) : Manifest :=
  { m with commands := .ofList (m.commands.toList.map fun (key, d) => canonicalEntry key d) }

end Manifest

end GameTable
