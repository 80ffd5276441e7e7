import GameTable.Session.Worker

/-!
# The terminal

A terminal passes the lines of a player on to the worker and writes what comes back: the messages
of the events, or the error and how to put it right. Three lines are for the terminal itself:
`:state` sums the state up, `:verify` compares it with the log, and `:quit` leaves. A fatal error
ends the conversation.
-/

namespace GameTable.Terminal

/-- How the conversation goes on after a line. -/
inductive Flow where
  | proceed
  | quit
  | fail (error : SessionError)

/-- A text with the end of a line. -/
def lineOf (s : String) : String := s ++ "\n"

/-- Who has the turn in an active loop. -/
def loopSummary (name : String) (l : Loop) : String :=
  name ++ ": " ++ ", ".intercalate l.orderedActors
    ++ " (current: " ++ l.currentActor?.getD "nobody" ++ ")"

/-- A state in a few lines. -/
def stateSummary (s : State) : String :=
  let active := s.loops.toList.filter fun (_, l) => l.active
  lineOf (toString s.entities.size ++ " entities, digest " ++ s.digest)
    ++ String.join (active.map fun (name, l) => lineOf (loopSummary name l))

def verdict (agree : Bool) : String :=
  lineOf (if agree then "log and state agree" else "state differs from the log; restart to replay")

/-- An error, and how to put it right. -/
def errorText (e : SessionError) : String :=
  lineOf ("error: " ++ e.message) ++ (e.usage?.elim "" fun u => lineOf ("usage: " ++ u))

/-- What is written for a reply, and how the conversation goes on. -/
def respond : Reply → String × Flow
  | .submitted (.ok events) => (String.join (events.map fun e => lineOf e.message), .proceed)
  | .submitted (.error e) => (errorText e, if e.severity = .fatal then .fail e else .proceed)
  | .state (.ok s) => (stateSummary s, .proceed)
  | .state (.error e) => ("", .fail e)
  | .verified (.ok agree) => (verdict agree, .proceed)
  | .verified (.error e) => ("", .fail e)
  | .ended (.ok ()) => ("", .proceed)
  | .ended (.error e) => ("", .fail e)

/-- The call that a line makes, if it makes one. -/
def callOf (line : String) : Option Call :=
  if line = ":verify" then some .verify
  else if line = ":state" then some .snapshot
  else if line.isEmpty then none
  else some (.submit line)

variable {ρ lg : Type} [Roller ρ] [EventLog lg]

/-- Handles one line: what is written, how the conversation goes on, and the worker afterwards. -/
def handle (w : Worker ρ lg) (line : String) : String × Flow × Worker ρ lg :=
  let line := Text.trim line
  if line = ":quit" then ("", .quit, w)
  else match callOf line with
    | none => ("", .proceed, w)
    | some call =>
      let (reply, w) := w.call call
      let (text, flow) := respond reply
      (text, flow, w)

/-- Handles lines until the conversation ends. The result is all that is written, the error that
ended it, if one did, and the worker. -/
def run (w : Worker ρ lg) : List String → String × Option SessionError × Worker ρ lg
  | [] => ("", none, w)
  | line :: rest =>
    match handle w line with
    | (text, .proceed, w) =>
      let (more, error, w) := run w rest
      (text ++ more, error, w)
    | (text, .quit, w) => (text, none, w)
    | (text, .fail e, w) => (text, some e, w)

end GameTable.Terminal
