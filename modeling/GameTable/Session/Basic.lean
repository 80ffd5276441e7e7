import GameTable.Command.Execute
import GameTable.Session.Error

/-!
# Sessions

A session owns the state of a game and the only log of its events. It turns input into events:
the input is read, the command executed, and the events are committed. Committing first applies
all events to a copy of the state; only if every one of them fits are they appended to the log and
applied to the state, one after the other. So a command is refused as a whole, and the state is
always what the log amounts to. If the log fails in the middle of a command, nothing more is
accepted until the session is started again.

When the game master allows what a player has asked for, the player's command is read and run
again, this time approved.
-/

namespace GameTable

structure Session (ρ lg : Type) where
  rules : Rules
  /-- How lines are read. -/
  parse : String → Except LineError Input
  evaluator : Evaluator ρ
  log : lg
  state : State
  /-- The last command of the manifest that was run. -/
  last : Option String
  /-- Whether the log has taken only a part of a command, or is torn. -/
  diverged : Bool

namespace State

/-- The first option of a question to the game master that waits for an answer. -/
def pendingCommand? (s : State) : Option String := do
  let ask ← s.metadata.get? pendingAsk
  let target ← (← ask.member? "target").str?
  if !isGM target then none
  match ← ask.member? "options" with
  | .arr (.str command :: _) => return command
  | _ => none

end State

/-- Applies the events of a command in order, counting from `index`. -/
def stageFrom (index : Nat) (s : State) : List Event → Except SessionError State
  | [] => .ok s
  | e :: rest =>
    match e.apply s with
    | .ok s => stageFrom (index + 1) s rest
    | .error cause => .error (.invalidEvent index e.tag cause)

/-- Applies the events of a command in order; the first that does not fit is the error. -/
def stage (s : State) (events : List Event) : Except SessionError State := stageFrom 0 s events

/-- Whether a command is one that approves what was asked for. -/
def isApproval (command : String) : Bool := command ∈ ["allow", "adjudicate"]

namespace Session

variable {ρ lg : Type}

/-- The state that a log amounts to. -/
def replayLog [EventLog lg] (compendium : Compendium) (log : lg) : Except SessionError State :=
  match EventLog.load log with
  | .error e => .error (.storage e)
  | .ok events =>
    match replay (.genesis compendium.entities) events with
    | .error e => .error (.replay e)
    | .ok s => .ok s

/-- Starts a session with the state that the log amounts to. -/
def start [EventLog lg] (rules : Rules) (parse : String → Except LineError Input)
    (evaluator : Evaluator ρ) (log : lg) : Except SessionError (Session ρ lg) :=
  match replayLog rules.compendium log with
  | .error e => .error e
  | .ok state => .ok ⟨rules, parse, evaluator, log, state, none, false⟩

/-- Appends events to the log, each followed by its application to the state. A failure after the
first event leaves the session diverged, and so does one that tears the log. -/
def writeFrom [EventLog lg] (index : Nat) (s : Session ρ lg) :
    List Event → Except SessionError Unit × Session ρ lg
  | [] => (.ok (), s)
  | e :: rest =>
    match EventLog.append s.log e with
    | (.error err, log) =>
      (.error (.storage err),
        { s with log, diverged := s.diverged || index != 0 || EventLog.isTorn log })
    | (.ok _, log) =>
      match e.apply s.state with
      | .ok state => writeFrom (index + 1) { s with log, state } rest
      | .error _ => (.error .diverged, { s with log, diverged := true })

/-- Commits the events of a command. -/
def commit [EventLog lg] (s : Session ρ lg) (events : List Event) :
    Except SessionError Unit × Session ρ lg :=
  match stage s.state events with
  | .error e => (.error e, s)
  | .ok _ => s.writeFrom 0 events

/-- Executes a request and commits its events. -/
def perform [Roller ρ] [EventLog lg] (s : Session ρ lg) (request : Request) :
    Except SessionError (List Event) × Session ρ lg :=
  match s.rules.execute request s.state s.last s.evaluator with
  | (.error e, evaluator) => (.error (.command e), { s with evaluator })
  | (.ok events, evaluator) =>
    match { s with evaluator }.commit events with
    | (.error e, s) => (.error e, s)
    | (.ok (), s) =>
      let command := canonicalName request.input.command
      (.ok events, if isBuiltin command then s else { s with last := some command })

/-- The command that a request approves, if it is an approval and a question to the game master
waits. -/
def approved? (s : Session ρ lg) (request : Request) : Option String :=
  if isApproval (canonicalName request.input.command) then s.state.pendingCommand? else none

/-- Runs a request. If it approves a command, `resume` goes on with that command. -/
def runThen [Roller ρ] [EventLog lg]
    (resume : Session ρ lg → String → Except SessionError (List Event) × Session ρ lg)
    (s : Session ρ lg) (request : Request) : Except SessionError (List Event) × Session ρ lg :=
  if s.diverged then (.error .diverged, s)
  else
    match s.perform request with
    | (.error (.command .ignored), t) => (.ok [], t)
    | (.error e, t) => (.error e, t)
    | (.ok events, t) =>
      match s.approved? request with
      | none => (.ok events, t)
      | some asked =>
        match resume t asked with
        | (.ok more, t) => (.ok (events ++ more), t)
        | (.error e, t) => (.error e, t)

/-- Reads a command that was asked for, and runs it approved. -/
def runAsked (run : Session ρ lg → Request → Except SessionError (List Event) × Session ρ lg)
    (s : Session ρ lg) (asked : String) : Except SessionError (List Event) × Session ρ lg :=
  match s.parse asked with
  | .error e => (.error (.line e), s)
  | .ok input => run s ⟨input, some asked, true⟩

/-- Runs a request, and a command that it approves as well, up to `reruns` commands deep. -/
def runWith [Roller ρ] [EventLog lg] (reruns : Nat) :
    Session ρ lg → Request → Except SessionError (List Event) × Session ρ lg :=
  match reruns with
  | 0 => runThen fun s _ => (.ok [], s)
  | n + 1 => runThen (runAsked (runWith n))

/-- Runs a request. An approval takes its question away before the command in it is run, so that
command cannot approve anything in turn. -/
def run [Roller ρ] [EventLog lg] (s : Session ρ lg) (request : Request) :
    Except SessionError (List Event) × Session ρ lg :=
  s.runWith 1 request

/-- Reads and runs a line. -/
def submit [Roller ρ] [EventLog lg] (s : Session ρ lg) (line : String) :
    Except SessionError (List Event) × Session ρ lg :=
  let line := Text.trim line
  match s.parse line with
  | .error e => (.error (.line e), s)
  | .ok input => s.run ⟨input, some line, false⟩

/-- Runs input that was not typed. -/
def submitInput [Roller ρ] [EventLog lg] (s : Session ρ lg) (input : Input) :
    Except SessionError (List Event) × Session ρ lg :=
  s.run (.ofInput input)

/-- Whether the log amounts to the state. -/
def verify [EventLog lg] (s : Session ρ lg) : Except SessionError Bool :=
  (replayLog s.rules.compendium s.log).map fun t => decide (t = s.state)

/-- Ends a session. -/
def close [EventLog lg] (s : Session ρ lg) : Except SessionError Unit × lg :=
  match EventLog.flush s.log with
  | (.ok (), log) => (.ok (), log)
  | (.error e, log) => (.error (.storage e), log)

def eventCount [EventLog lg] (s : Session ρ lg) : Nat := EventLog.size s.log

end Session

/-- What a session is made of; it cannot be started until nothing is missing. -/
structure SessionParts (ρ lg : Type) where
  manifest : Option Manifest
  compendium : Option Compendium
  log : Option lg
  evaluator : Evaluator ρ
  transcribe : Bool

/-- Starts a session on its parts, with lines read in the usual way. -/
def SessionParts.start {ρ lg : Type} [EventLog lg] (p : SessionParts ρ lg) :
    Except SessionError (Session ρ lg) :=
  match p.manifest, p.compendium, p.log with
  | none, _, _ => .error (.missing .manifest)
  | _, none, _ => .error (.missing .compendium)
  | _, _, none => .error (.missing .log)
  | some manifest, some compendium, some log =>
    Session.start ⟨manifest, compendium, p.transcribe⟩ Line.parse p.evaluator log

end GameTable
