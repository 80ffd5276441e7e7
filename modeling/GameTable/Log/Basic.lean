import GameTable.Event.Record

/-!
# Event logs

A log takes events at its end and gives them back in order. Appending answers with the offset of
the event, which is a matter of the log. A log that fails to append stores nothing, unless it is
torn by that: then a part of the record is left behind. Every answer comes with the log as it is
afterwards.
-/

namespace GameTable

/-- Why a log fails. Lines are counted from one. -/
inductive LogError where
  /-- The storage fails, with its own message. -/
  | storage (message : String)
  /-- The line is not the record of an event. -/
  | malformed (line : Nat)
  | unknownTag (line : Nat) (tag : String)
  /-- The last line has no end. -/
  | truncated (line : Nat)
  | readOnly
deriving DecidableEq, Repr

def LogError.message : LogError → String
  | .storage message => "I/O error: " ++ message
  | .malformed line => "line " ++ toString line ++ ": invalid event JSON"
  | .unknownTag line tag => "line " ++ toString line ++ ": unknown event type '" ++ tag ++ "'"
  | .truncated line => "line " ++ toString line ++ ": truncated record at end of log"
  | .readOnly => "event log is read-only"

/-- What a session needs of a log. -/
class EventLog (lg : Type) where
  append : lg → Event → Except LogError Nat × lg
  load : lg → Except LogError (List Event)
  /-- How many events the log counts. -/
  size : lg → Nat
  /-- Makes sure that everything appended is stored. -/
  flush : lg → Except LogError Unit × lg
  /-- Whether a part of a record is left at the end, which could not be cut off. -/
  isTorn : lg → Bool

end GameTable
