import GameTable.Json.Printer
import GameTable.State.Entity
import GameTable.Value.Printer

/-!
# Events

An event is a single thing that happened at the table. Every command that is accepted becomes a
list of events, and the log of a session is nothing else. An event names what it is about and
carries plain values, so that it can be stored and applied to a state at any later time.
-/

namespace GameTable

inductive Event where
  /-- Starts a loop afresh, or puts it out of action. -/
  | loopSwitched (loop : String) (active : Bool)
  | loopDirection (loop : String) (ascending : Bool)
  /-- Gives an actor a sort key, enrolling it if needed. -/
  | loopOrder (loop actor : String) (value : Int)
  | actorAdded (loop actor : String)
  /-- Passes the turn on. -/
  | loopAdvanced (loop : String)
  | entityAdded (entity : Entity)
  /-- Sets an entry of a section; null removes it. -/
  | attributeChanged (actor sec key : String) (value : Json)
  /-- Spends one of a resource. -/
  | spentAdded (actor key : String)
  | conditionChanged (actor condition : String) (add : Bool)
  /-- Puts a question that waits for an answer. -/
  | askIssued (target : String) (options : List String)
  | hinted (message : String)
  | diceRolled (actor dice : String) (result : Int)
  /-- Sets the metadata at a dotted path; null removes it. -/
  | metadataChanged (key : String) (value : Json)
  | checked (actor check : String) (passed : Bool)
deriving DecidableEq

namespace Event

/-- The tags under which events are stored. -/
def tags : List String :=
  ["LoopEvent", "LoopOrderAscendingEvent", "LoopOrderEvent", "ActorAddedEvent",
   "LoopAdvancedEvent", "EntityAddedEvent", "AttributeChangedEvent", "AddSpentEvent",
   "ConditionEvent", "AskIssuedEvent", "HintEvent", "DiceRolledEvent", "MetadataChangedEvent",
   "CheckEvent"]

def tag : Event → String
  | .loopSwitched .. => "LoopEvent"
  | .loopDirection .. => "LoopOrderAscendingEvent"
  | .loopOrder .. => "LoopOrderEvent"
  | .actorAdded .. => "ActorAddedEvent"
  | .loopAdvanced _ => "LoopAdvancedEvent"
  | .entityAdded _ => "EntityAddedEvent"
  | .attributeChanged .. => "AttributeChangedEvent"
  | .spentAdded .. => "AddSpentEvent"
  | .conditionChanged .. => "ConditionEvent"
  | .askIssued .. => "AskIssuedEvent"
  | .hinted _ => "HintEvent"
  | .diceRolled .. => "DiceRolledEvent"
  | .metadataChanged .. => "MetadataChangedEvent"
  | .checked .. => "CheckEvent"

/-- The line of the transcript. -/
def message : Event → String
  | .loopSwitched loop true => loop ++ " started"
  | .loopSwitched loop false => loop ++ " ended"
  | .loopDirection loop ascending =>
    loop ++ " ordered " ++ (if ascending then "ascending" else "descending")
  | .loopOrder loop actor value =>
    actor ++ " takes position " ++ Value.intText value ++ " in " ++ loop
  | .actorAdded loop actor => actor ++ " joins " ++ loop
  | .loopAdvanced loop => loop ++ ": next turn"
  | .entityAdded entity => entity.name ++ " (" ++ entity.id ++ ") enters"
  | .attributeChanged actor sec key value =>
    let place := actor ++ ": " ++ sec ++ "." ++ key
    if value.isNull then place ++ " cleared" else place ++ " = " ++ value.render
  | .spentAdded actor key => actor ++ " spends " ++ key
  | .conditionChanged actor condition add =>
    actor ++ (if add then " is now " else " is no longer ") ++ condition
  | .askIssued target options => target ++ ", choose: " ++ " | ".intercalate options
  | .hinted message => message
  | .diceRolled actor dice result => actor ++ " rolls " ++ dice ++ ": " ++ Value.intText result
  | .metadataChanged key value =>
    if value.isNull then key ++ " cleared" else key ++ " = " ++ value.render
  | .checked actor check passed => actor ++ (if passed then " passes " else " fails ") ++ check

end Event

end GameTable
