import GameTable.Command.Error
import GameTable.Command.Line
import GameTable.Event.Replay
import GameTable.Log.Basic

/-!
# What can go wrong in a session

Besides what a line, a command, the log or a replay can do wrong: an event that does not fit the
state, and the failures that end a session.
-/

namespace GameTable

/-- What a session cannot do without. -/
inductive SessionPart where
  | manifest
  | compendium
  | log
deriving DecidableEq, Repr

def SessionPart.name : SessionPart → String
  | .manifest => "manifest"
  | .compendium => "data loader"
  | .log => "event log"

inductive SessionError where
  | line (error : LineError)
  | command (error : CommandError)
  | storage (error : LogError)
  | replay (error : ReplayError)
  /-- An event of a command does not fit the state; events are counted from zero. -/
  | invalidEvent (index : Nat) (tag : String) (cause : ApplyError)
  /-- The log has taken only a part of a command. -/
  | diverged
  | missing (part : SessionPart)
  | workerClosed
deriving DecidableEq

namespace SessionError

def code : SessionError → String
  | .line _ => "ParseError"
  | .command e => e.code
  | .storage _ => "StorageError"
  | .replay _ => "ReplayError"
  | .invalidEvent .. => "InvalidEventError"
  | .diverged => "DivergedError"
  | .missing _ => "ConfigurationError"
  | .workerClosed => "WorkerClosedError"

def severity : SessionError → Severity
  | .line _ => .validation
  | .command e => e.severity
  | .invalidEvent _ _ cause => cause.severity
  | .storage _ => .internal
  | .replay _ | .diverged | .missing _ | .workerClosed => .fatal

def message : SessionError → String
  | .line e => e.message
  | .command e => e.message
  | .storage e => "event log failure: " ++ e.message
  | .replay e => "campaign log could not be replayed: " ++ e.message
  | .invalidEvent index tag cause =>
    tag ++ " (event #" ++ toString index ++ " of the command) cannot be applied: " ++ cause.message
  | .diverged => "session state diverged from the event log; restart to replay"
  | .missing part => "session is missing its " ++ part.name
  | .workerClosed => "session worker has stopped"

instance : Coded SessionError := ⟨code, severity, message⟩

/-- How to put it right, where that helps. -/
def usage? : SessionError → Option String
  | .line _ => some LineError.usage
  | .command e => e.usage?
  | _ => none

end SessionError

end GameTable
