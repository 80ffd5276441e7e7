import GameTable.Event.Basic
import GameTable.Value.Document

/-!
# Effects of steps

A step of a command may name an effect. The effect looks at the result of the step's formula and
says which events follow from it. A result that does not have the shape that the effect needs has
no consequence, and neither has the name of an effect that does not exist.
-/

namespace GameTable

inductive Effect where
  | switchLoop
  | directLoop
  | orderLoop
  | addActor
  | advanceLoop
  | addEntity
  | changeAttribute
  | addSpent
  | addCondition
  | removeCondition
  | issueAsk
  | hint
  | changeMetadata
  | check
  | resolveContest
deriving DecidableEq, Repr

namespace Effect

def all : List Effect :=
  [.switchLoop, .directLoop, .orderLoop, .addActor, .advanceLoop, .addEntity, .changeAttribute,
   .addSpent, .addCondition, .removeCondition, .issueAsk, .hint, .changeMetadata, .check,
   .resolveContest]

def name : Effect → String
  | .switchLoop => "LoopEvent"
  | .directLoop => "LoopOrderAscendingEvent"
  | .orderLoop => "LoopOrderEvent"
  | .addActor => "ActorAddedEvent"
  | .advanceLoop => "LoopAdvancedEvent"
  | .addEntity => "EntityAddedEvent"
  | .changeAttribute => "AttributeChangedEvent"
  | .addSpent => "AddSpentEvent"
  | .addCondition => "AddConditionEvent"
  | .removeCondition => "RemoveConditionEvent"
  | .issueAsk => "AskIssuedEvent"
  | .hint => "HintEvent"
  | .changeMetadata => "MetadataChangedEvent"
  | .check => "CheckEvent"
  | .resolveContest => "ContestResolvedEvent"

def named? (name : String) : Option Effect := all.find? (·.name = name)

end Effect

/-- Where a step runs: who acts, on whom (the empty text outside the target phase), by which
command, and in which loop if not the command's own. -/
structure Origin where
  actor : String
  target : String
  command : String
  loopOverride : Option String
deriving DecidableEq, Repr

namespace Origin

def loop (o : Origin) : String := o.loopOverride.getD o.command

def targetOrActor (o : Origin) : String := if o.target.isEmpty then o.actor else o.target

end Origin

/-- The text in the entry of a map. -/
def Value.textAt? (v : Value) (k : String) : Option String := (v.get? k).bind Value.str?

/-- A text that is not empty. -/
def nonEmpty? (s : String) : Option String := if s.isEmpty then none else some s

namespace Effect

/-- The names in a result: a text, or the texts of a list, as far as they are not empty. -/
def names : Value → List String
  | .str s => (nonEmpty? s).toList
  | .list items => items.filterMap fun v => v.str?.bind nonEmpty?
  | _ => []

/-- The document in the entry of a map; null if there is none. -/
def documentAt (v : Value) (k : String) : Json := ((v.get? k).map Value.toJson).getD .null

/-- A sort key: an integer for the actor itself, or a map that may name another actor. -/
def order (o : Origin) (result : Value) : Option Event :=
  match result with
  | .map _ => do
    let value ← (← result.get? "value").toInt?
    return .loopOrder o.loop ((result.textAt? "actor").getD o.actor) value
  | v => v.toInt?.map (.loopOrder o.loop o.actor)

/-- An entity with an id of its own. -/
def entity (result : Value) : Option Event := do
  let _ ← nonEmpty? (← result.textAt? "id")
  return .entityAdded (← Entity.read? result.toJson)

/-- An entry of a section, of the target unless another entity is named. -/
def attributeChange (o : Origin) (result : Value) : Option Event := do
  let sec ← result.textAt? "section"
  let key ← result.textAt? "key"
  let actor := ((result.textAt? "actor_id").bind nonEmpty?).getD o.targetOrActor
  return .attributeChanged actor sec key (documentAt result "value")

/-- Whom a question is for: an id, or the entity with that id. -/
def addressee : Value → Option String
  | .str id => nonEmpty? id
  | v => (v.textAt? "id").bind nonEmpty?

/-- A question: the addressee, then the options. -/
def ask : Value → Option Event
  | .list (first :: options) => do
    return .askIssued (← addressee first) (options.map Value.text)
  | _ => none

def metadata (result : Value) : Option Event := do
  let key ← nonEmpty? (← result.textAt? "key")
  return .metadataChanged key (documentAt result "value")

/-- The events that follow from the result of a step. Outside the target phase a list of names
enrolls only its first. -/
def events (effect : Effect) (o : Origin) (result : Value) : List Event :=
  match effect, result with
  | .switchLoop, .bool active => [.loopSwitched o.loop active]
  | .directLoop, .bool ascending => [.loopDirection o.loop ascending]
  | .orderLoop, v => (order o v).toList
  | .addActor, v =>
    let names := if o.target.isEmpty then (names v).take 1 else names v
    names.map (.actorAdded o.loop)
  | .advanceLoop, .bool true => [.loopAdvanced o.loop]
  | .addEntity, v => (entity v).toList
  | .changeAttribute, v => (attributeChange o v).toList
  | .addSpent, .str key => ((nonEmpty? key).map (.spentAdded o.actor)).toList
  | .addCondition, .str condition =>
    ((nonEmpty? condition).map (.conditionChanged o.targetOrActor · true)).toList
  | .removeCondition, .str condition =>
    ((nonEmpty? condition).map (.conditionChanged o.targetOrActor · false)).toList
  | .issueAsk, v => (ask v).toList
  | .hint, .str message => [.hinted message]
  | .changeMetadata, v => (metadata v).toList
  | .check, .bool passed => [.checked o.actor o.command passed]
  | .resolveContest, .bool passed => [.checked o.actor "contest" passed]
  | _, _ => []

end Effect

/-- The events of a step, by the name of its effect. -/
def effectEvents (name : String) (o : Origin) (result : Value) : List Event :=
  match Effect.named? name with
  | some effect => effect.events o result
  | none => []

end GameTable
