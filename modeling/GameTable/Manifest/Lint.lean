import GameTable.Effect
import GameTable.Formula.Program
import GameTable.Manifest.Basic

/-!
# Checking a manifest

Every formula of a manifest must compile; the first that does not is an error. What is merely
suspicious is reported: effects that do not exist, turn loops without a name, and restrictions on
commands that do not exist.
-/

namespace GameTable

/-- The part of a command that a formula belongs to. -/
inductive CommandPart where
  | prereq
  | game
  | targets
  | actor
deriving DecidableEq, Repr

def CommandPart.name : CommandPart → String
  | .prereq => "prereq"
  | .game => "game"
  | .targets => "targets"
  | .actor => "actor"

/-- A formula of a manifest that does not compile. -/
structure ManifestError where
  command : String
  part : CommandPart
  step : String
  cause : FormulaError
deriving DecidableEq

def ManifestError.message (e : ManifestError) : String :=
  "command '" ++ e.command ++ "' " ++ e.part.name ++ " '" ++ e.step ++ "': " ++ e.cause.message

/-- Something suspicious in a manifest. -/
inductive LintWarning where
  | unknownEvent (command : String) (part : CommandPart) (step event : String)
  | emptyTurn (command : String)
  | unknownRestricted (listed : String)
deriving DecidableEq, Repr

def LintWarning.message : LintWarning → String
  | .unknownEvent command part step event =>
    "command '" ++ command ++ "' " ++ part.name ++ " step '" ++ step ++ "' uses unknown event '"
      ++ event ++ "'"
  | .emptyTurn command => "command '" ++ command ++ "' has an empty turn loop"
  | .unknownRestricted listed => "restriction names unknown command '" ++ listed ++ "'"

/-- Compiles a formula of a manifest. -/
def lintFormula (command : String) (part : CommandPart) (step formula : String) :
    Except ManifestError Unit :=
  match Program.compile formula with
  | .ok _ => .ok ()
  | .error cause => .error ⟨command, part, step, cause⟩

def PrereqDef.lint (command : String) (p : PrereqDef) : Except ManifestError Unit :=
  lintFormula command .prereq p.name p.formula

def StepDef.lint (command : String) (part : CommandPart) (s : StepDef) :
    Except ManifestError (List LintWarning) := do
  lintFormula command part s.name s.formula
  if s.event.isEmpty || (Effect.named? s.event).isSome then return []
  return [.unknownEvent command part s.name s.event]

/-- Runs a check over a list and joins what it reports. -/
def lintAll {α : Type} (check : α → Except ManifestError (List LintWarning)) (xs : List α) :
    Except ManifestError (List LintWarning) := do
  return (← xs.mapM check).flatten

def CommandDef.lint (command : String) (d : CommandDef) :
    Except ManifestError (List LintWarning) := do
  d.prereqs.forM (PrereqDef.lint command)
  let game ← lintAll (StepDef.lint command .game) d.game
  let targets ← lintAll (StepDef.lint command .targets) d.targets
  let actor ← lintAll (StepDef.lint command .actor) d.actor
  return game ++ targets ++ actor ++ (if d.turn = some "" then [.emptyTurn command] else [])

namespace Manifest

/-- The restrictions on commands that do not exist. -/
def lintRestrictions (m : Manifest) : List LintWarning :=
  let listed := m.gmCommands ++ m.adjudicated
  (listed.filter fun name => !m.commands.contains name && !isBuiltin name).map .unknownRestricted

/-- What is suspicious in a manifest, or its first formula that does not compile. -/
def lint (m : Manifest) : Except ManifestError (List LintWarning) := do
  let commands ← lintAll (fun (name, d) => d.lint name) m.commands.toList
  return commands ++ m.lintRestrictions

end Manifest

end GameTable
