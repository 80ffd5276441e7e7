import GameTable.Command.Error
import GameTable.Command.Request
import GameTable.Event.Basic
import GameTable.Formula.Program

/-!
# The built-in commands

Commands that every table has: rolling dice, help and hints, questions to other participants, and
the game master's decision on a question. They are run without parameters being declared and
without prerequisites, and only a roll touches the dice.
-/

namespace GameTable

namespace Builtin

def rollUsage : String := "roll dice: <notation>, e.g. roll dice: 1d20+3"

def askUsage : String := "ask to: <target> options: <a> and <b>"

/-- What is said when the last command has no hint of its own. -/
def defaultHint : String := "No hint yet. Try 'help' to list the available commands."

/-- The dice of a roll, if they are given. -/
def diceOf? (input : Input) : Option String :=
  ((input.params.get? "dice").map Value.text).filter fun d => !(Text.trim d).isEmpty

/-- Rolls dice on behalf of the actor. -/
def rollDice {ρ : Type} [Roller ρ] (input : Input) (ev : Evaluator ρ) :
    Except CommandError (List Event) × Evaluator ρ :=
  match diceOf? input with
  | none => (.error (.param "dice" (.param .missing) rollUsage), ev)
  | some dice =>
    match ev.roll dice with
    | (.ok total, ev) => (.ok [.diceRolled input.actor dice total], ev)
    | (.error e, ev) => (.error (.param "dice" (.dice e) rollUsage), ev)

/-- The help on a command. -/
def helpOn (d : CommandDef) : String :=
  let help := d.name ++ ": " ++ d.help
  if d.usage.isEmpty then help else help ++ "\nusage: " ++ d.usage

/-- The list of all commands. -/
def helpOnAll (manifest : Manifest) : String :=
  "commands: " ++ ", ".intercalate manifest.commands.keys
    ++ "\nbuilt-in: " ++ ", ".intercalate (all.map name)

/-- Help on the command that is asked for, or on all if there is no such command. -/
def helpText (input : Input) (manifest : Manifest) : String :=
  let asked := ((input.params.get? "command").map fun v => canonicalName v.text).getD ""
  ((manifest.command? asked).map helpOn).getD (helpOnAll manifest)

/-- The hint that goes with the last command. -/
def hintText (last : Option String) (manifest : Manifest) : String :=
  let hint := (last.bind manifest.command?).map CommandDef.hint
  (hint.filter fun h => !h.isEmpty).getD defaultHint

/-- The options of a question. -/
def askOptions (input : Input) : List String :=
  match input.params.get? "options" with
  | some (.list items) => items.map Value.text
  | some .null | none => []
  | some v => [v.text]

/-- Puts a question to every target. -/
def askTargets (input : Input) : Except CommandError (List Event) :=
  if input.targets.isEmpty then .error (.param "to" .noTarget askUsage)
  else .ok (input.targets.map (.askIssued · (askOptions input)))

/-- The document of a decision. -/
def decision (approved : Bool) : Json := .obj [("approved", .bool approved)]

/-- Decides on the question that waits, which only the game master may. The question is taken
away, if there is one, and the decision is kept. -/
def settle (command : String) (input : Input) (s : State) (approved : Bool) :
    Except CommandError (List Event) :=
  if input.isByGM then
    let answered := if s.metadata.contains State.pendingAsk then
      [Event.metadataChanged State.pendingAsk .null] else []
    .ok (answered ++ [.metadataChanged State.lastAdjudication (decision approved)])
  else .error (.unauthorized command input.actor)

/-- Runs a built-in command. `last` is the last command of the manifest that was run. -/
def run {ρ : Type} [Roller ρ] (command : Builtin) (input : Input) (s : State)
    (last : Option String) (manifest : Manifest) (ev : Evaluator ρ) :
    Except CommandError (List Event) × Evaluator ρ :=
  match command with
  | .roll => rollDice input ev
  | .help => (.ok [.hinted (helpText input manifest)], ev)
  | .hint => (.ok [.hinted (hintText last manifest)], ev)
  | .ask => (askTargets input, ev)
  | .allow | .adjudicate => (settle command.name input s true, ev)
  | .deny => (settle command.name input s false, ev)

end Builtin

end GameTable
