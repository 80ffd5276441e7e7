import GameTable.Json.Printer
import GameTable.Severity
import GameTable.State.Entity
import GameTable.Value.Printer

/-!
# Why an event does not fit a state

An event is taken as a whole or refused as a whole, for one of these reasons. The last of them is
not a refusal: a sum beyond 64 bits is a fault, and a program that meets it stops.
-/

namespace GameTable

inductive ApplyError where
  | unknownEntity (id : String)
  | duplicateEntity (id : String)
  | emptyEntityId
  | unknownLoop (name : String)
  /-- More would be spent than there is. -/
  | spentOutOfRange (actor key : String) (spent limit : Int)
  | negativeValue (actor : String) (sec : NumberSection) (key : String) (value : Int)
  /-- The value is of no use to the section. -/
  | attributeType (sec : Section) (key : String) (found : Json)
  | unknownSection (name : String)
  | emptyMetadataKey
  /-- A sum does not fit 64 bits. -/
  | overflow
deriving DecidableEq

namespace ApplyError

def message : ApplyError → String
  | .unknownEntity id => "unknown entity '" ++ id ++ "'"
  | .duplicateEntity id => "entity '" ++ id ++ "' already exists"
  | .emptyEntityId => "entity id must not be empty"
  | .unknownLoop name => "unknown loop '" ++ name ++ "'"
  | .spentOutOfRange actor key spent limit =>
    "spent " ++ key ++ " on '" ++ actor ++ "' would be " ++ Value.intText spent
      ++ ", outside 0..=" ++ Value.intText limit
  | .negativeValue actor sec key value =>
    "negative " ++ (Section.numbers sec).name ++ " value " ++ Value.intText value ++ " for '"
      ++ key ++ "' on '" ++ actor ++ "'"
  | .attributeType sec key found =>
    let expected := match sec with
      | .numbers _ => "int"
      | .texts _ => "string"
    sec.name ++ "." ++ key ++ " expects " ++ expected ++ ", got " ++ found.render
  | .unknownSection name => "unknown attribute section '" ++ name ++ "'"
  | .emptyMetadataKey => "metadata key must not be empty"
  | .overflow => "attempt to add with overflow"

def code : ApplyError → String
  | .unknownEntity _ => "APPLY_UNKNOWN_ENTITY"
  | .duplicateEntity _ => "APPLY_DUPLICATE_ENTITY"
  | .emptyEntityId => "APPLY_EMPTY_ENTITY_ID"
  | .unknownLoop _ => "APPLY_UNKNOWN_LOOP"
  | .spentOutOfRange .. => "APPLY_SPENT_OUT_OF_RANGE"
  | .negativeValue .. => "APPLY_NEGATIVE_VALUE"
  | .attributeType .. => "APPLY_ATTRIBUTE_TYPE"
  | .unknownSection _ => "APPLY_UNKNOWN_SECTION"
  | .emptyMetadataKey => "APPLY_EMPTY_METADATA_KEY"
  | .overflow => "APPLY_OVERFLOW"

def severity : ApplyError → Severity
  | .overflow => .fatal
  | _ => .internal

instance : Coded ApplyError := ⟨code, severity, message⟩

end ApplyError

/-- Checks one entry of `spent`: not negative, and not more than the resource of that name. -/
def Entity.checkSpentEntry (e : Entity) (key : String) (spent : Int) : Except ApplyError Unit :=
  if spent < 0 then .error (.negativeValue e.id .spent key spent)
  else match e.resources.get? key with
    | some limit =>
      if spent > limit then .error (.spentOutOfRange e.id key spent limit) else .ok ()
    | none => .ok ()

/-- Checks all that is spent, in the order of the names. -/
def Entity.checkSpent (e : Entity) : Except ApplyError Unit :=
  e.spent.toList.forM fun (key, spent) => e.checkSpentEntry key spent

end GameTable
