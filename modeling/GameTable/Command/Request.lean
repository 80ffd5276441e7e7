import GameTable.Manifest.Params
import GameTable.Text.LetterCase

/-!
# Requests

What somebody asks the table to do: a command, who asks, on whom, and with which parameters. A
request may carry the line in which it was typed, and may be one that the GM has approved. Where
it was not typed, `Input.render` writes it the way it would have been.
-/

namespace GameTable

/-- The id of the game master. -/
def gameMaster : String := "GM"

/-- Whether an id is that of the game master; the case of the letters does not matter. -/
def isGM (id : String) : Bool := Text.lowerAscii id = Text.lowerAscii gameMaster

/-- A command with who gives it, on whom, and its parameters. -/
structure Input where
  command : String
  actor : String
  targets : List String
  params : Dict Value
deriving DecidableEq

namespace Input

/-- A command given by the game master, without targets and parameters. -/
def ofCommand (command : String) : Input := ⟨command, gameMaster, [], ∅⟩

def isByGM (input : Input) : Bool := isGM input.actor

/-- The command as it is typed. -/
def render (input : Input) : String :=
  let command := input.command.map fun c => if c = '_' then ' ' else c
  let giver :=
    if input.actor.isEmpty || input.isByGM then "" else " by: " ++ input.actor
  let receivers := if input.targets.isEmpty then "" else " to: " ++ " and ".intercalate input.targets
  let params := input.params.toList.map fun (key, v) => " " ++ key ++ ": " ++ v.phrase
  command ++ giver ++ receivers ++ String.join params

end Input

structure Request where
  input : Input
  /-- The line that was typed. -/
  raw : Option String
  /-- Whether the game master has approved the request. -/
  approved : Bool
deriving DecidableEq

namespace Request

def ofInput (input : Input) : Request := ⟨input, none, false⟩

/-- The request as it was typed, or as it would have been. -/
def asTyped (r : Request) : String := r.raw.getD r.input.render

end Request

end GameTable
