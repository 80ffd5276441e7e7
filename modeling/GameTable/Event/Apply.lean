import GameTable.Event.Basic
import GameTable.Event.Metadata
import GameTable.State.Basic
import GameTable.State.Error
import GameTable.Value.Document

/-!
# Applying events

How an event changes a state, and when it is refused. Applying is a function of the state and the
event alone. What it checks it checks before anything is changed, so the answer is either a new
state or an error.
-/

namespace GameTable

namespace State

def loop (s : State) (name : String) : Except ApplyError Loop :=
  match s.loops.get? name with
  | some l => .ok l
  | none => .error (.unknownLoop name)

def entity (s : State) (id : String) : Except ApplyError Entity :=
  match s.entities.get? id with
  | some e => .ok e
  | none => .error (.unknownEntity id)

def setLoop (s : State) (name : String) (l : Loop) : State :=
  { s with loops := s.loops.insert name l }

def setEntity (s : State) (id : String) (e : Entity) : State :=
  { s with entities := s.entities.insert id e }

def setMetadata (s : State) (key : String) (value : Json) : State :=
  { s with metadata := s.metadata.insert key value }

/-- Changes a loop that exists. -/
def updateLoop (s : State) (name : String) (f : Loop → Loop) : Except ApplyError State := do
  return s.setLoop name (f (← s.loop name))

/-- Changes an entity that exists, unless the change is refused. -/
def updateEntity (s : State) (id : String) (f : Entity → Except ApplyError Entity) :
    Except ApplyError State := do
  return s.setEntity id (← f (← s.entity id))

/-- Starts a loop afresh. Putting a loop out of action that is not there does nothing. -/
def switchLoop (s : State) (name : String) (active : Bool) : State :=
  if active then s.setLoop name .started
  else match s.loops.get? name with
    | some l => s.setLoop name { l with active := false }
    | none => s

/-- Adds an entity under a new id. -/
def addEntity (s : State) (e : Entity) : Except ApplyError State := do
  if e.id.isEmpty then throw .emptyEntityId
  if s.entities.contains e.id then throw (.duplicateEntity e.id)
  e.checkSpent
  return s.setEntity e.id e

end State

namespace Entity

/-- Spends one more of a resource. `actor` is the name the event has for the entity. -/
def spendOne (actor key : String) (e : Entity) : Except ApplyError Entity := do
  let spent := (e.spent.get? key).getD 0 + 1
  match e.resources.get? key with
  | some limit => if spent > limit then throw (.spentOutOfRange actor key spent limit)
  | none => pure ()
  return { e with spent := e.spent.insert key spent }

/-- The same, where the sum has to fit 64 bits. -/
def spendFitting (actor key : String) (e : Entity) : Except ApplyError Entity :=
  if Fits ((e.spent.get? key).getD 0 + 1) then e.spendOne actor key else .error .overflow

def addCondition (condition : String) (e : Entity) : Entity :=
  if e.hasCondition condition then e else { e with conditions := e.conditions ++ [condition] }

def removeCondition (condition : String) (e : Entity) : Entity :=
  { e with conditions := e.conditions.filter (· != condition) }

/-- The entry of a dictionary set, or removed when there is no value. -/
def putEntry {α : Type} (d : Dict α) (key : String) : Option α → Dict α
  | some a => d.insert key a
  | none => d.erase key

/-- Sections whose numbers are counts. -/
def countsUp : NumberSection → Bool
  | .resources | .spent | .inventory => true
  | .stats | .proficiencies => false

/-- Checks a number before it is set: counts are not negative, and no more is spent than there
is. -/
def checkNumber (e : Entity) (sec : NumberSection) (key : String) (n : Int) :
    Except ApplyError Unit := do
  if countsUp sec && n < 0 then throw (.negativeValue e.id sec key n)
  let bounds := match sec with
    | .spent => (some n, e.resources.get? key)
    | .resources => (e.spent.get? key, some n)
    | _ => (none, none)
  match bounds with
  | (some spent, some limit) =>
    if spent > limit then throw (.spentOutOfRange e.id key spent limit)
  | _ => pure ()

/-- The number that a document gives to a section, nothing for null. -/
def numberOf (sec : NumberSection) (key : String) : Json → Except ApplyError (Option Int)
  | .null => .ok none
  | j =>
    match (Value.ofJson j).toInt? with
    | some n => .ok (some n)
    | none => .error (.attributeType (.numbers sec) key j)

/-- The text that a document gives to a section, nothing for null. -/
def textOf (sec : TextSection) (key : String) : Json → Except ApplyError (Option String)
  | .null => .ok none
  | .str s => .ok (some s)
  | .arr items => .error (.attributeType (.texts sec) key (.arr items))
  | .obj members => .error (.attributeType (.texts sec) key (.obj members))
  | j => .ok (some j.render)

/-- Sets an entry of a section, or removes it if the value is null. -/
def changeEntry (sec : Section) (key : String) (value : Json) (e : Entity) :
    Except ApplyError Entity :=
  match sec with
  | .numbers sec => do
    let number ← numberOf sec key value
    match number with
    | some n => e.checkNumber sec key n
    | none => pure ()
    return e.setNumbers (putEntry (e.numbers sec) key number) sec
  | .texts sec => do
    let text ← textOf sec key value
    return e.setTexts (putEntry (e.texts sec) key text) sec

end Entity

/-- The metadata of a question. -/
def askDocument (target : String) (options : List String) : Json :=
  .obj [("options", .ofStrings options), ("target", .str target)]

/-- The metadata of a check. -/
def checkDocument (actor check : String) (passed : Bool) : Json :=
  .obj [("actor", .str actor), ("check", .str check), ("passed", .bool passed)]

/-- The state after an event, or why the event is refused. -/
def Event.apply (event : Event) (s : State) : Except ApplyError State :=
  match event with
  | .loopSwitched loop active => .ok (s.switchLoop loop active)
  | .loopDirection loop ascending => s.updateLoop loop fun l => { l with ascending }
  | .loopOrder loop actor value =>
    s.updateLoop loop fun l => { l with order := l.order.insert actor value }.enroll actor
  | .actorAdded loop actor => s.updateLoop loop (·.enroll actor)
  | .loopAdvanced loop => s.updateLoop loop Loop.advance
  | .entityAdded e => s.addEntity e
  | .attributeChanged actor sec key value =>
    match Section.named? sec with
    | none => .error (.unknownSection sec)
    | some sec => s.updateEntity actor (Entity.changeEntry sec key value)
  | .spentAdded actor key => s.updateEntity actor (Entity.spendFitting actor key)
  | .conditionChanged actor condition add =>
    s.updateEntity actor fun e =>
      .ok (if add then e.addCondition condition else e.removeCondition condition)
  | .askIssued target options =>
    .ok (s.setMetadata State.pendingAsk (askDocument target options))
  | .hinted _ | .diceRolled .. => .ok s
  | .metadataChanged key value =>
    match Metadata.path? key with
    | none => .error .emptyMetadataKey
    | some path => .ok { s with metadata := Metadata.set value path s.metadata }
  | .checked actor check passed =>
    .ok (s.setMetadata State.lastCheck (checkDocument actor check passed))

end GameTable
