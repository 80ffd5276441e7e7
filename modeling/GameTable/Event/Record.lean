import GameTable.Event.Basic
import GameTable.Json.Parser

/-!
# How events are stored

An event is stored as an object with its tag under `type` and its fields under `data`, both in a
fixed order. `Event.read?` accepts the two members in any order, as well as a list of the two;
other members are ignored, repeated ones refused. All fields of an event have to be there, in an
object of their own. What is ignored need not be readable; fields that stand before the tag,
however, are not yet known to be ignored.
-/

namespace GameTable.Event

/-- The fields of an event, in the order in which they are stored. -/
def fields : Event → List (String × Json)
  | .loopSwitched loop active => [("loop", .str loop), ("active", .bool active)]
  | .loopDirection loop ascending => [("loop", .str loop), ("ascending", .bool ascending)]
  | .loopOrder loop actor value =>
    [("loop", .str loop), ("actor", .str actor), ("value", .int value)]
  | .actorAdded loop actor => [("loop", .str loop), ("actor", .str actor)]
  | .loopAdvanced loop => [("loop", .str loop)]
  | .entityAdded entity => [("entity", entity.toJson)]
  | .attributeChanged actor sec key value =>
    [("actor", .str actor), ("section", .str sec), ("key", .str key), ("value", value)]
  | .spentAdded actor key => [("actor", .str actor), ("key", .str key)]
  | .conditionChanged actor condition add =>
    [("actor", .str actor), ("condition", .str condition), ("add", .bool add)]
  | .askIssued target options => [("target", .str target), ("options", .ofStrings options)]
  | .hinted message => [("message", .str message)]
  | .diceRolled actor dice result =>
    [("actor", .str actor), ("dice", .str dice), ("result", .int result)]
  | .metadataChanged key value => [("key", .str key), ("value", value)]
  | .checked actor check passed =>
    [("actor", .str actor), ("check", .str check), ("passed", .bool passed)]

/-- The document that stores an event. -/
def toJson (e : Event) : Json := .obj [("type", .str e.tag), ("data", .obj e.fields)]

/-- The line that stores an event in a log. -/
def line (e : Event) : String := e.toJson.render

/-- The names of the fields that go with a tag. -/
def fieldNames : String → List String
  | "LoopEvent" => ["loop", "active"]
  | "LoopOrderAscendingEvent" => ["loop", "ascending"]
  | "LoopOrderEvent" => ["loop", "actor", "value"]
  | "ActorAddedEvent" => ["loop", "actor"]
  | "LoopAdvancedEvent" => ["loop"]
  | "EntityAddedEvent" => ["entity"]
  | "AttributeChangedEvent" => ["actor", "section", "key", "value"]
  | "AddSpentEvent" => ["actor", "key"]
  | "ConditionEvent" => ["actor", "condition", "add"]
  | "AskIssuedEvent" => ["target", "options"]
  | "HintEvent" => ["message"]
  | "DiceRolledEvent" => ["actor", "dice", "result"]
  | "MetadataChangedEvent" => ["key", "value"]
  | "CheckEvent" => ["actor", "check", "passed"]
  | _ => []

section Reading

variable {τ : Type} [DocumentTree τ]

/-- Reads the fields that go with a tag. -/
def readFields? (tag : String) (data : τ) : Option Event := do
  let look ← Tree.named? (fieldNames tag) data
  let text := fun k => Tree.fieldOf look k Tree.text?
  let flag := fun k => Tree.fieldOf look k Tree.flag?
  let integer := fun k => Tree.fieldOf look k Tree.integer64?
  let document := fun k => Tree.fieldOf look k DocumentTree.document?
  match tag with
  | "LoopEvent" => return .loopSwitched (← text "loop") (← flag "active")
  | "LoopOrderAscendingEvent" => return .loopDirection (← text "loop") (← flag "ascending")
  | "LoopOrderEvent" => return .loopOrder (← text "loop") (← text "actor") (← integer "value")
  | "ActorAddedEvent" => return .actorAdded (← text "loop") (← text "actor")
  | "LoopAdvancedEvent" => return .loopAdvanced (← text "loop")
  | "EntityAddedEvent" => return .entityAdded (← Tree.fieldOf look "entity" Entity.read?)
  | "AttributeChangedEvent" =>
    return .attributeChanged (← text "actor") (← text "section") (← text "key")
      (← document "value")
  | "AddSpentEvent" => return .spentAdded (← text "actor") (← text "key")
  | "ConditionEvent" =>
    return .conditionChanged (← text "actor") (← text "condition") (← flag "add")
  | "AskIssuedEvent" =>
    return .askIssued (← text "target") (← Tree.fieldOf look "options" Tree.texts?)
  | "HintEvent" => return .hinted (← text "message")
  | "DiceRolledEvent" =>
    return .diceRolled (← text "actor") (← text "dice") (← integer "result")
  | "MetadataChangedEvent" => return .metadataChanged (← text "key") (← document "value")
  | "CheckEvent" => return .checked (← text "actor") (← text "check") (← flag "passed")
  | _ => none

/-- Whether the fields stand before the tag. -/
def dataLeads (members : List (String × τ)) : Bool :=
  (members.find? fun m => m.1 = "type" || m.1 = "data").any (·.1 = "data")

/-- Reads a stored event. -/
def read? (t : τ) : Option Event :=
  match Tree.items? t with
  | some [tag, data] => do readFields? (← Tree.choice? tag) data
  | some _ => none
  | none => do
    let look ← Tree.named? ["type", "data"] t
    let data ← look "data"
    if dataLeads (← Tree.fields? t) && (DocumentTree.document? data).isNone then none
    readFields? (← Tree.fieldOf look "type" Tree.choice?) data

end Reading

/-- Reads the text of a stored event. -/
def parse? (s : String) : Option Event := (Json.read s).bind read?

example : line (.loopAdvanced "x") = "\x7b\"type\":\"LoopAdvancedEvent\",\"data\":\x7b\"loop\":\"x\"\x7d\x7d" := by
  decide +kernel
example : parse? (line (.metadataChanged "a.b" (.arr [.int 1, .null])))
    = some (.metadataChanged "a.b" (.arr [.int 1, .null])) := by decide +kernel
example : parse? "\x7b\"type\":\"HintEvent\",\"data\":\x7b\"message\":\"x\",\"n\":1e999\x7d\x7d"
    = some (.hinted "x") := by decide +kernel
example : parse? "\x7b\"data\":\x7b\"message\":\"x\",\"n\":1e999\x7d,\"type\":\"HintEvent\"\x7d"
    = none := by decide +kernel

end GameTable.Event
