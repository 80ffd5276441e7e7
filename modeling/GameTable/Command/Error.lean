import GameTable.Formula.Error
import GameTable.Manifest.Params

/-!
# Why a command is refused

A command that is refused changes nothing. `ignored` is for players that are not to be answered at
all: while the game is frozen, and when it is not their turn.
-/

namespace GameTable

/-- What is wrong with a parameter of a command. -/
inductive CommandFault where
  | param (fault : ParamFault)
  /-- The dice of a roll cannot be rolled. -/
  | dice (error : DiceError)
  | noTarget
deriving DecidableEq

def CommandFault.message : CommandFault → String
  | .param fault => fault.message
  | .dice error => error.message
  | .noTarget => "ask needs at least one target"

inductive CommandError where
  | unknownCommand (command : String)
  | unauthorized (command actor : String)
  | param (key : String) (fault : CommandFault) (usage : String)
  /-- A prerequisite does not hold. -/
  | prereq (name error : String)
  | formula (step : String) (cause : FormulaError)
  | ignored
deriving DecidableEq

namespace CommandError

/-- Whether the error is kept from whoever gave the command. -/
def isSilent : CommandError → Bool
  | .ignored => true
  | _ => false

/-- How the command is used, where that helps. -/
def usage? : CommandError → Option String
  | .param _ _ usage => if usage.isEmpty then none else some usage
  | _ => none

def code : CommandError → String
  | .unknownCommand _ => "UnknownCommandError"
  | .unauthorized .. => "UnauthorizedError"
  | .param .. => "ParamError"
  | .prereq .. => "PrereqError"
  | .formula .. => "FormulaError"
  | .ignored => "SilentIgnore"

def severity : CommandError → Severity
  | .unknownCommand _ | .unauthorized .. | .param .. => .validation
  | .prereq .. | .ignored => .recoverable
  | .formula .. => .internal

def message : CommandError → String
  | .unknownCommand command => "unknown command '" ++ command ++ "'"
  | .unauthorized command actor =>
    "'" ++ actor ++ "' may not run '" ++ command ++ "'; it is restricted to the GM"
  | .param key fault _ => "invalid parameter '" ++ key ++ "': " ++ fault.message
  | .prereq name error =>
    if error.isEmpty then "prerequisite '" ++ name ++ "' not met" else error
  | .formula step cause => "formula step '" ++ step ++ "' failed: " ++ cause.message
  | .ignored => "command silently ignored"

instance : Coded CommandError := ⟨code, severity, message⟩

end CommandError

end GameTable
