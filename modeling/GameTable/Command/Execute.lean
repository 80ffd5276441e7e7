import GameTable.Command.Builtin
import GameTable.Effect
import GameTable.View.Context

/-!
# Executing commands

How a request becomes events. The gates come first: a frozen game ignores the players, some
commands are for the game master alone, and a command may belong to the turn of an actor. Then the
parameters are checked and the prerequisites evaluated. At last the steps run in three phases, and
the events of the phases follow one another: the game phase once, the target phase once for every
target, the actor phase once. The steps of the target and actor phases see the results of the game
phase and those of their own run, never those of another target.

Executing reads the state and does not change it. Whatever fails, no events remain.
-/

namespace GameTable

/-- The rules that a table plays by. -/
structure Rules where
  manifest : Manifest
  compendium : Compendium
  /-- Whether the rolls of a step become events too. -/
  transcribe : Bool
deriving DecidableEq

/-- The result by which a step of the game phase asks for the game master's approval. -/
def askForApproval : Value := .str "adjudicate"

/-- Why the execution of a command stops early. -/
inductive Stop where
  | refused (error : CommandError)
  | needsApproval
deriving DecidableEq

/-- A part of the execution of a command: it uses the evaluator and may stop early. -/
abbrev Exec (ρ : Type) := ExceptT Stop (StateM (Evaluator ρ))

namespace Exec

variable {ρ : Type} {α : Type}

def refuse (e : CommandError) : Exec ρ α := throw (.refused e)

end Exec

/-- Whether an actor may run a command as far as turns are concerned. -/
def CommandDef.holdsTurn (d : CommandDef) (s : State) (actor : String) : Bool :=
  match d.turn.bind s.loops.get? with
  | some l => !l.active || l.currentActor? = some actor
  | none => true

namespace Execute

variable {ρ : Type}

/-- Checks that the targets of a request exist, and then its parameters. -/
def checkParams (d : CommandDef) (input : Input) (s : State) :
    Except CommandError (Dict Value) :=
  match input.targets.find? fun id => !s.entities.contains id with
  | some id => .error (.param "to" (.param (.unknownTarget id)) d.usage)
  | none =>
    match d.validateParams s input.params with
    | .ok params => .ok params
    | .error issue => .error (.param issue.param (.param issue.fault) d.usage)

variable [Roller ρ]

/-- Evaluates a formula of a command. -/
def evaluate (step formula : String) (context : Dict Value) : Exec ρ (Value × List Formula.RollRecord) :=
  fun ev =>
    match ev.evaluate formula context with
    | (⟨.ok v, rolls⟩, ev) => (.ok (v, rolls), ev)
    | (⟨.error cause, _⟩, ev) => (.error (.refused (.formula step cause)), ev)

/-- Evaluates a prerequisite and stops unless it is true. -/
def checkPrereq (context : Dict Value) (p : PrereqDef) : Exec ρ Unit := do
  let (v, _) ← evaluate p.name p.formula context
  match v with
  | .bool true => return
  | .bool false => Exec.refuse (.prereq p.name p.error)
  | v => Exec.refuse (.formula p.name (.type (.prerequisite v.typeName)))

/-- The events of a step: its rolls, if they are wanted, and then those of its effect. -/
def stepEvents (transcribe : Bool) (o : Origin) (step : StepDef) (result : Value)
    (rolls : List Formula.RollRecord) : List Event :=
  (if transcribe then rolls.map fun (dice, total) => .diceRolled o.actor dice total else [])
    ++ (if step.event.isEmpty then []
      else effectEvents step.event { o with loopOverride := step.loop } result)

/-- Runs a step on the results of earlier ones. -/
def runStep (transcribe : Bool) (view : View) (o : Origin) (results : Dict Value)
    (step : StepDef) : Exec ρ (Value × List Event) := do
  let context := view.context o.actor (if o.target.isEmpty then none else some o.target) results
  let (v, rolls) ← evaluate step.name step.formula context
  return (v, stepEvents transcribe o step v rolls)

/-- Runs steps one after the other, each on the results so far, and joins their events. Where the
steps are gated, a result that asks for approval stops them. -/
def runSteps (transcribe gated : Bool) (view : View) (o : Origin) :
    List StepDef → Dict Value → Exec ρ (Dict Value × List Event)
  | [], results => return (results, [])
  | step :: rest, results => do
    let (v, events) ← runStep transcribe view o results step
    if gated && v = askForApproval then throw .needsApproval
    let (results, more) ← runSteps transcribe gated view o rest (results.insert step.name v)
    return (results, events ++ more)

/-- Runs the target phase for one target after the other. -/
def runTargets (transcribe : Bool) (view : View) (o : Origin) (steps : List StepDef)
    (results : Dict Value) : List String → Exec ρ (List Event)
  | [] => return []
  | target :: rest => do
    let (_, events) ← runSteps transcribe false view { o with target } steps results
    let more ← runTargets transcribe view o steps results rest
    return events ++ more

/-- Runs the three phases of a command. -/
def runPhases (transcribe gated : Bool) (view : View) (o : Origin) (d : CommandDef)
    (targets : List String) : Exec ρ (List Event) := do
  let (results, game) ← runSteps transcribe gated view o d.game ∅
  let perTarget ← runTargets transcribe view o d.targets results targets
  let (_, actor) ← runSteps transcribe false view o d.actor results
  return game ++ perTarget ++ actor

/-- Runs a command of the manifest whose gates are open. -/
def runCommand (rules : Rules) (command : String) (d : CommandDef) (request : Request)
    (s : State) : Exec ρ (List Event) := do
  let input := request.input
  match checkParams d input s with
  | .error e => Exec.refuse e
  | .ok params =>
    let targets := d.resolveTargets input.targets params
    let view := View.of s rules.compendium rules.manifest params request.approved
    d.prereqs.forM (checkPrereq (view.context input.actor targets.head? ∅))
    let gated := !request.approved && rules.manifest.isAdjudicated command
    runPhases rules.transcribe gated view ⟨input.actor, "", command, none⟩ d targets

/-- The question that asks the game master to approve a request. -/
def approvalAsk (request : Request) : Event := .askIssued gameMaster [request.asTyped]

end Execute

/-- The gate in front of a command of the manifest: the definition of the command, if whoever asks
may run it now. -/
def Rules.admit (rules : Rules) (command : String) (input : Input) (s : State) :
    Except CommandError CommandDef :=
  match rules.manifest.command? command with
  | none => .error (.unknownCommand command)
  | some d =>
    if input.isByGM then .ok d
    else if rules.manifest.isForGM command then .error (.unauthorized command input.actor)
    else if d.holdsTurn s input.actor then .ok d
    else .error .ignored

/-- Executes a request: the events that follow, or why it is refused. `last` is the last command
of the manifest that was run. -/
def Rules.execute {ρ : Type} [Roller ρ] (rules : Rules) (request : Request) (s : State)
    (last : Option String) (ev : Evaluator ρ) : Except CommandError (List Event) × Evaluator ρ :=
  let input := request.input
  let command := canonicalName input.command
  if s.isFrozen && !input.isByGM then (.error .ignored, ev)
  else match Builtin.named? command with
    | some builtin => builtin.run input s last rules.manifest ev
    | none =>
      match rules.admit command input s with
      | .error e => (.error e, ev)
      | .ok d =>
        match Execute.runCommand rules command d request s ev with
        | (.ok events, ev) => (.ok events, ev)
        | (.error .needsApproval, ev) => (.ok [Execute.approvalAsk request], ev)
        | (.error (.refused e), ev) => (.error e, ev)

end GameTable
