import GameTable.Manifest.Record
import GameTable.State.Basic
import GameTable.View.Action
import GameTable.View.Entity

/-!
# What formulas see

Every formula of a command is evaluated in a context made from the state, the compendium, the
manifest and the parameters of the request. `View.of` makes the part that is the same for all
formulas of a command; `View.context` adds who acts, on whom, and the results of earlier steps.
Making a context reads the state and changes nothing.
-/

namespace GameTable

/-- Whether a command is approved, as a formula finds it. -/
def approval (approved : Bool) : Value := .ofEntries [("approved", .bool approved)]

namespace State

/-- Whether a loop is active whose name starts with `encounter`. -/
def isEncounterActive (s : State) : Bool :=
  s.loops.toList.any fun (name, l) =>
    l.active && "encounter".toList.isPrefixOf name.toList

/-- The entity with an id as a formula sees it. -/
def project (s : State) (id : String) : Value :=
  ((s.entities.get? id).getD (.blank id "")).view

/-- The metadata as formulas see it. For an approved command the approval is set, whatever the
state says. -/
def metadataView (s : State) (approved : Bool) : Dict Value :=
  let defaults : Dict Value := .ofList
    [("pending_adjudication", approval false), ("pending_checks", .map []),
     ("pending_damage", .map [])]
  let stored := s.metadata.toList.foldl (fun d (key, j) => d.insert key (.ofJson j)) defaults
  if approved then stored.insert "pending_adjudication" (approval true) else stored

end State

/-- A state, and what all formulas of a command see of it. -/
structure View where
  state : State
  base : Dict Value

namespace View

/-- What the formulas of a command see of a state. -/
def of (s : State) (compendium : Compendium) (manifest : Manifest) (params : Dict Value)
    (approved : Bool) : View :=
  let action := Value.ofDict (Action.normalize compendium params)
  let metadata := s.metadataView approved
  let shared := (∅ : Dict Value)
    |>.insert "action" action
    |>.insert "command" action
    |>.insert "metadata" (.ofDict metadata)
    |>.insert "pending_adjudication" ((metadata.get? "pending_adjudication").getD .null)
    |>.insert "is_frozen" (.bool s.isFrozen)
    |>.insert "is_encounter_active" (.bool s.isEncounterActive)
    |>.insert "entities" (.ofDict (s.entities.map Entity.view))
    |>.insert "manifest" manifest.toValue
  { state := s
    base := manifest.commands.keys.foldl
      (fun d name => d.insert ("is_" ++ name ++ "_active") (.bool (s.isLoopActive name))) shared }

/-- The context of one formula. Without a target an empty entity stands in its place. -/
def context (v : View) (actor : String) (target : Option String) (steps : Dict Value) :
    Dict Value :=
  v.base
    |>.insert "actor" (v.state.project actor)
    |>.insert "target" (target.elim (Entity.blank "" "").view v.state.project)
    |>.insert "steps" (.ofDict steps)

end View

end GameTable
