import GameTable.Manifest.Basic
import GameTable.Tree

/-!
# Manifests as documents

A manifest is read from a tree, where everything but the name of a parameter may be missing. In
the other direction it becomes a document, which formulas see under the name `manifest`; there
only a missing turn loop and a missing loop of a step are left out.
-/

namespace GameTable

variable {τ : Type} [Tree τ]

namespace ParamDef

def toJson (p : ParamDef) : Json :=
  .obj [("name", .str p.name), ("type", .str p.type.name), ("required", .bool p.required)]

def read? (t : τ) : Option ParamDef := do
  let look ← Tree.record? ["name", "type", "required"] t
  return {
    name := ← Tree.fieldOf look "name" Tree.text?
    type := ← Tree.fieldOr look "type" (fun t => (Tree.choice? t).bind ParamType.named?) .text
    required := ← Tree.fieldOr look "required" Tree.flag? false }

end ParamDef

namespace PrereqDef

def toJson (p : PrereqDef) : Json :=
  .obj [("name", .str p.name), ("formula", .str p.formula), ("error", .str p.error)]

def read? (t : τ) : Option PrereqDef := do
  let look ← Tree.record? ["name", "formula", "error"] t
  return {
    name := ← Tree.fieldOr look "name" Tree.text? ""
    formula := ← Tree.fieldOr look "formula" Tree.text? ""
    error := ← Tree.fieldOr look "error" Tree.text? "" }

end PrereqDef

/-- A member that may be left out. -/
def optionalMember (key : String) : Option String → List (String × Json)
  | some s => [(key, .str s)]
  | none => []

namespace StepDef

def toJson (s : StepDef) : Json :=
  .obj ([("name", .str s.name), ("formula", .str s.formula), ("event", .str s.event)]
    ++ optionalMember "loop" s.loop)

def read? (t : τ) : Option StepDef := do
  let look ← Tree.record? ["name", "formula", "event", "loop"] t
  return {
    name := ← Tree.fieldOr look "name" Tree.text? ""
    formula := ← Tree.fieldOr look "formula" Tree.text? ""
    event := ← Tree.fieldOr look "event" Tree.text? ""
    loop := ← Tree.fieldOr look "loop" (Tree.unlessNull? Tree.text?) none }

end StepDef

namespace CommandDef

def fieldNames : List String :=
  ["name", "params", "prereq", "game", "targets", "actor", "hint", "help", "error", "turn"]

def toJson (d : CommandDef) : Json :=
  .obj ([("name", .str d.name), ("params", .arr (d.params.map ParamDef.toJson)),
    ("prereq", .arr (d.prereqs.map PrereqDef.toJson)),
    ("game", .arr (d.game.map StepDef.toJson)), ("targets", .arr (d.targets.map StepDef.toJson)),
    ("actor", .arr (d.actor.map StepDef.toJson)), ("hint", .str d.hint), ("help", .str d.help),
    ("error", .str d.usage)] ++ optionalMember "turn" d.turn)

def read? (t : τ) : Option CommandDef := do
  let look ← Tree.record? fieldNames t
  let text := fun k => Tree.fieldOr look k Tree.text? ""
  let steps := fun k => Tree.fieldOr look k (Tree.list? StepDef.read?) []
  return {
    name := ← text "name"
    params := ← Tree.fieldOr look "params" (Tree.list? ParamDef.read?) []
    prereqs := ← Tree.fieldOr look "prereq" (Tree.list? PrereqDef.read?) []
    game := ← steps "game"
    targets := ← steps "targets"
    actor := ← steps "actor"
    hint := ← text "hint"
    help := ← text "help"
    usage := ← text "error"
    turn := ← Tree.fieldOr look "turn" (Tree.unlessNull? Tree.text?) none }

end CommandDef

namespace Manifest

def toJson (m : Manifest) : Json :=
  .obj [("restrictions", .obj [("gm_commands", .ofStrings m.gmCommands),
      ("adjudication", .obj [("commands", .ofStrings m.adjudicated)])]),
    ("commands", .ofDict (m.commands.map CommandDef.toJson))]

/-- The manifest as formulas see it. -/
def toValue (m : Manifest) : Value := .ofJson m.toJson.normalized

/-- Reads the commands that may wait for approval. -/
def readAdjudicated? (t : τ) : Option (List String) := do
  let look ← Tree.record? ["commands"] t
  Tree.fieldOr look "commands" Tree.texts? []

/-- Reads the restricted commands: those for the GM alone, and those that may wait. -/
def readRestrictions? (t : τ) : Option (List String × List String) := do
  let look ← Tree.record? ["gm_commands", "adjudication"] t
  return (← Tree.fieldOr look "gm_commands" Tree.texts? [],
    ← Tree.fieldOr look "adjudication" readAdjudicated? [])

def read? (t : τ) : Option Manifest := do
  let look ← Tree.record? ["restrictions", "commands"] t
  let (gmCommands, adjudicated) ← Tree.fieldOr look "restrictions" readRestrictions? ([], [])
  return {
    gmCommands, adjudicated
    commands := ← Tree.fieldOr look "commands" (Tree.dict? CommandDef.read?) ∅ }

end Manifest

end GameTable
