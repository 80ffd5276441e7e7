import GameTable.Proofs.Formula.Evaluator
import GameTable.Command.Execute

/-!
# What a command does besides its events

The events of a command are written down from what it did: a command of the
manifest has run steps, and anything else has made its events directly. This
file runs commands without writing anything down (`Rules.trace`) and shows that
executing is running and then writing down what was done
(`execute_eq_trace`). Whether rolls are transcribed matters to the second part
alone.

The steps of a command ran one after the other on one evaluator (`Ran`), so the
transcript of a step is just the rolls that the step made.
-/

namespace GameTable

open Formula (RollRecord Rolled)

/-- Whether an event tells of dice. -/
def Event.isRoll : Event → Bool
  | .diceRolled .. => true
  | _ => false

/-- A step that was run, with its result and the rolls that it made. -/
structure StepRun where
  origin : Origin
  step : StepDef
  result : Value
  rolls : List RollRecord

namespace StepRun

/-- The rolls of the step as events. -/
def transcript (run : StepRun) : List Event :=
  run.rolls.map fun (dice, total) => .diceRolled run.origin.actor dice total

/-- The events of the step's effect. -/
def mapped (run : StepRun) : List Event :=
  if run.step.event.isEmpty then []
  else effectEvents run.step.event { run.origin with loopOverride := run.step.loop } run.result

def events (transcribe : Bool) (run : StepRun) : List Event :=
  (if transcribe then run.transcript else []) ++ run.mapped

end StepRun

/-- What a command does: it makes events directly, or it runs steps. -/
inductive Deed where
  | direct (events : List Event)
  | steps (runs : List StepRun)

namespace Deed

def events (transcribe : Bool) : Deed → List Event
  | direct events => events
  | steps runs => runs.flatMap (StepRun.events transcribe)

/-- The events with a transcript, less the rolls that are in it for a step. -/
def eventsLessTranscript : Deed → List Event
  | direct events => events
  | steps runs => (runs.flatMap (StepRun.events true)).filter fun e => !e.isRoll

end Deed

/-! ## No effect rolls dice -/

namespace Effect

variable {o : Origin} {result : Value} {e : Event}

theorem isRoll_of_order (h : order o result = some e) : e.isRoll = false := by
  rw [order.eq_def] at h
  split at h
  · simp only [Option.bind_eq_bind, Option.pure_def, Option.bind_eq_some_iff, Option.some.injEq] at h
    obtain ⟨_, _, _, _, rfl⟩ := h
    rfl
  · obtain ⟨_, _, rfl⟩ := Option.map_eq_some_iff.mp h
    rfl

theorem isRoll_of_entity (h : entity result = some e) : e.isRoll = false := by
  simp only [entity, Option.bind_eq_bind, Option.pure_def, Option.bind_eq_some_iff,
    Option.some.injEq] at h
  obtain ⟨_, _, _, _, _, _, rfl⟩ := h
  rfl

theorem isRoll_of_attributeChange (h : attributeChange o result = some e) : e.isRoll = false := by
  simp only [attributeChange, Option.bind_eq_bind, Option.pure_def, Option.bind_eq_some_iff,
    Option.some.injEq] at h
  obtain ⟨_, _, _, _, rfl⟩ := h
  rfl

theorem isRoll_of_ask (h : ask result = some e) : e.isRoll = false := by
  rw [ask.eq_def] at h
  split at h
  · simp only [Option.bind_eq_bind, Option.pure_def, Option.bind_eq_some_iff, Option.some.injEq] at h
    obtain ⟨_, _, rfl⟩ := h
    rfl
  · cases h

theorem isRoll_of_metadata (h : metadata result = some e) : e.isRoll = false := by
  simp only [metadata, Option.bind_eq_bind, Option.pure_def, Option.bind_eq_some_iff,
    Option.some.injEq] at h
  obtain ⟨_, _, _, _, rfl⟩ := h
  rfl

/-- Most effects follow from results of one shape, and nothing from any other. -/
theorem isRoll_of_mem_events {effect : Effect} (h : e ∈ effect.events o result) :
    e.isRoll = false := by
  cases effect with
  | orderLoop => exact isRoll_of_order (Option.mem_toList.mp h)
  | addEntity => exact isRoll_of_entity (Option.mem_toList.mp h)
  | changeAttribute => exact isRoll_of_attributeChange (Option.mem_toList.mp h)
  | issueAsk => exact isRoll_of_ask (Option.mem_toList.mp h)
  | changeMetadata => exact isRoll_of_metadata (Option.mem_toList.mp h)
  | addActor =>
      obtain ⟨_, -, rfl⟩ := List.mem_map.mp h
      rfl
  | addSpent | addCondition | removeCondition =>
      cases result with
      | str name =>
          obtain ⟨_, -, rfl⟩ := Option.map_eq_some_iff.mp (Option.mem_toList.mp h)
          rfl
      | _ => cases h
  | hint =>
      cases result with
      | str message =>
          obtain rfl := List.mem_singleton.mp h
          rfl
      | _ => cases h
  | switchLoop | directLoop | check | resolveContest =>
      cases result with
      | bool holds =>
          obtain rfl := List.mem_singleton.mp h
          rfl
      | _ => cases h
  | advanceLoop =>
      cases result with
      | bool holds =>
          cases holds with
          | true =>
              obtain rfl := List.mem_singleton.mp h
              rfl
          | false => cases h
      | _ => cases h

end Effect

theorem StepRun.isRoll_of_mem_mapped {run : StepRun} {e : Event} (h : e ∈ run.mapped) :
    e.isRoll = false := by
  rw [mapped] at h
  split at h
  · cases h
  · rw [effectEvents] at h
    split at h
    · exact Effect.isRoll_of_mem_events h
    · cases h

/-- Without its rolls a transcript is gone, and what the effect made is left. -/
theorem StepRun.filter_events (run : StepRun) :
    (run.events true).filter (fun e => !e.isRoll) = run.events false := by
  have htranscript : run.transcript.filter (fun e => !e.isRoll) = [] := by
    rw [List.filter_eq_nil_iff]
    intro e he
    obtain ⟨⟨dice, total⟩, -, rfl⟩ := List.mem_map.mp he
    exact Bool.false_ne_true
  have hmapped : run.mapped.filter (fun e => !e.isRoll) = run.mapped := by
    rw [List.filter_eq_self]
    intro e he
    rw [isRoll_of_mem_mapped he]
    rfl
  rw [events, events, List.filter_append, if_pos rfl, htranscript, hmapped]
  rfl

theorem Deed.eventsLessTranscript_eq (deed : Deed) :
    deed.eventsLessTranscript = deed.events false := by
  cases deed with
  | direct events => rfl
  | steps runs =>
      rw [eventsLessTranscript, events, List.filter_flatMap]
      simp only [StepRun.filter_events]

/-!
## Running without writing

The functions that execute a command, with the steps that they run in place of
the events.
-/

namespace Execute

variable {ρ : Type} [Roller ρ]

def traceStep (view : View) (o : Origin) (results : Dict Value) (step : StepDef) :
    Exec ρ StepRun := do
  let context := view.context o.actor (if o.target.isEmpty then none else some o.target) results
  let (v, rolls) ← evaluate step.name step.formula context
  return ⟨o, step, v, rolls⟩

def traceSteps (gated : Bool) (view : View) (o : Origin) :
    List StepDef → Dict Value → Exec ρ (Dict Value × List StepRun)
  | [], results => return (results, [])
  | step :: rest, results => do
    let run ← traceStep view o results step
    if gated && run.result = askForApproval then throw .needsApproval
    let (results, more) ← traceSteps gated view o rest (results.insert step.name run.result)
    return (results, run :: more)

def traceTargets (view : View) (o : Origin) (steps : List StepDef) (results : Dict Value) :
    List String → Exec ρ (List StepRun)
  | [] => return []
  | target :: rest => do
    let (_, runs) ← traceSteps false view { o with target } steps results
    let more ← traceTargets view o steps results rest
    return runs ++ more

def tracePhases (gated : Bool) (view : View) (o : Origin) (d : CommandDef)
    (targets : List String) : Exec ρ (List StepRun) := do
  let (results, game) ← traceSteps gated view o d.game ∅
  let perTarget ← traceTargets view o d.targets results targets
  let (_, actor) ← traceSteps false view o d.actor results
  return game ++ perTarget ++ actor

def traceCommand (rules : Rules) (command : String) (d : CommandDef) (request : Request)
    (s : State) : Exec ρ (List StepRun) := do
  let input := request.input
  match checkParams d input s with
  | .error e => Exec.refuse e
  | .ok params =>
    let targets := d.resolveTargets input.targets params
    let view := View.of s rules.compendium rules.manifest params request.approved
    d.prereqs.forM (checkPrereq (view.context input.actor targets.head? ∅))
    let gated := !request.approved && rules.manifest.isAdjudicated command
    tracePhases gated view ⟨input.actor, "", command, none⟩ d targets

theorem runStep_eq (transcribe : Bool) (view : View) (o : Origin) (results : Dict Value)
    (step : StepDef) :
    (runStep transcribe view o results step : Exec ρ _)
      = (fun run => (run.result, run.events transcribe)) <$> traceStep view o results step := by
  simp only [runStep, traceStep, map_eq_pure_bind, bind_assoc, pure_bind]
  rfl

theorem runSteps_eq (transcribe gated : Bool) (view : View) (o : Origin) (steps : List StepDef)
    (results : Dict Value) :
    (runSteps transcribe gated view o steps results : Exec ρ _)
      = (fun (results, runs) => (results, runs.flatMap (StepRun.events transcribe)))
          <$> traceSteps gated view o steps results := by
  induction steps generalizing results with
  | nil => rfl
  | cons step rest ih =>
      simp only [runSteps, traceSteps, runStep_eq, ih, map_eq_pure_bind, bind_assoc, pure_bind]
      congr 1
      funext run
      split
      · rfl
      · simp only [bind_assoc, pure_bind, List.flatMap_cons]

theorem runTargets_eq (transcribe : Bool) (view : View) (o : Origin) (steps : List StepDef)
    (results : Dict Value) (targets : List String) :
    (runTargets transcribe view o steps results targets : Exec ρ _)
      = (fun runs => runs.flatMap (StepRun.events transcribe))
          <$> traceTargets view o steps results targets := by
  induction targets with
  | nil => rfl
  | cons target rest ih =>
      simp only [runTargets, traceTargets, runSteps_eq, ih, map_eq_pure_bind, bind_assoc,
        pure_bind, List.flatMap_append]

theorem runPhases_eq (transcribe gated : Bool) (view : View) (o : Origin) (d : CommandDef)
    (targets : List String) :
    (runPhases transcribe gated view o d targets : Exec ρ _)
      = (fun runs => runs.flatMap (StepRun.events transcribe))
          <$> tracePhases gated view o d targets := by
  simp only [runPhases, tracePhases, runSteps_eq, runTargets_eq, map_eq_pure_bind, bind_assoc,
    pure_bind, List.flatMap_append]

theorem runCommand_eq (rules : Rules) (command : String) (d : CommandDef) (request : Request)
    (s : State) :
    (runCommand rules command d request s : Exec ρ _)
      = (fun runs => runs.flatMap (StepRun.events rules.transcribe))
          <$> traceCommand rules command d request s := by
  cases h : checkParams d request.input s with
  | error e =>
      simp only [runCommand, traceCommand, h]
      rfl
  | ok params =>
      simp only [runCommand, traceCommand, h, runPhases_eq, map_eq_pure_bind, bind_assoc]

end Execute

/-- What executing a request does, whether or not its rolls are transcribed. -/
def Rules.trace {ρ : Type} [Roller ρ] (rules : Rules) (request : Request) (s : State)
    (last : Option String) (ev : Evaluator ρ) : Except CommandError Deed × Evaluator ρ :=
  let input := request.input
  let command := canonicalName input.command
  if s.isFrozen && !input.isByGM then (.error .ignored, ev)
  else match Builtin.named? command with
    | some builtin =>
      match builtin.run input s last rules.manifest ev with
      | (result, ev) => (result.map .direct, ev)
    | none =>
      match rules.admit command input s with
      | .error e => (.error e, ev)
      | .ok d =>
        match Execute.traceCommand rules command d request s ev with
        | (.ok runs, ev) => (.ok (.steps runs), ev)
        | (.error .needsApproval, ev) => (.ok (.direct [Execute.approvalAsk request]), ev)
        | (.error (.refused e), ev) => (.error e, ev)

section

variable {ρ : Type} [Roller ρ]

/-- Executing is running, and then writing down what was done. -/
theorem Rules.execute_eq_trace (rules : Rules) (request : Request) (s : State)
    (last : Option String) (ev : Evaluator ρ) :
    rules.execute request s last ev
      = ((rules.trace request s last ev).1.map (Deed.events rules.transcribe),
        (rules.trace request s last ev).2) := by
  cases hfrozen : s.isFrozen && !request.input.isByGM with
  | true =>
      simp only [execute, trace, hfrozen, if_true]
      rfl
  | false =>
      cases hb : Builtin.named? (canonicalName request.input.command) with
      | some b =>
          simp only [execute, trace, hfrozen, hb, Bool.false_eq_true, if_false]
          rcases b.run request.input s last rules.manifest ev with ⟨_ | events, ev'⟩
          · rfl
          · rfl
      | none =>
          cases hd : rules.admit (canonicalName request.input.command) request.input s with
          | error e =>
              simp only [execute, trace, hfrozen, hb, hd, Bool.false_eq_true, if_false]
              rfl
          | ok d =>
              simp only [execute, trace, hfrozen, hb, hd, Bool.false_eq_true, if_false,
                Execute.runCommand_eq, run_map]
              rcases Execute.traceCommand rules (canonicalName request.input.command) d request s ev
                with ⟨(e | _) | runs, ev'⟩
              · rfl
              · rfl
              · rfl

/-- What is done is not what is written down. -/
theorem Rules.trace_transcribing (rules : Rules) (transcribe : Bool) (request : Request) (s : State)
    (last : Option String) (ev : Evaluator ρ) :
    Rules.trace { rules with transcribe } request s last ev = rules.trace request s last ev := by
  have hcommand : ∀ command d, (Execute.traceCommand { rules with transcribe } command d request s :
      Exec ρ _) = Execute.traceCommand rules command d request s := by
    intro command d
    rw [Execute.traceCommand, Execute.traceCommand]
  have hadmit : ∀ command, Rules.admit { rules with transcribe } command request.input s
      = rules.admit command request.input s := by
    intro command
    rfl
  simp only [trace, hcommand, hadmit]

/-! ## The steps of a command -/

/-- Steps that ran one after the other: the formula of each was evaluated where
the one before had left the evaluator, and it made just the rolls that the step
is said to have made. -/
inductive Ran : Evaluator ρ → List StepRun → Evaluator ρ → Prop where
  | nil (ev : Evaluator ρ) : Ran ev [] ev
  | cons {ev ev₁ ev' : Evaluator ρ} {run : StepRun} {runs : List StepRun} {context : Dict Value} :
      ev.evaluate run.step.formula context = (⟨.ok run.result, run.rolls⟩, ev₁) →
      Rolled ev.roller run.rolls ev₁.roller → Ran ev₁ runs ev' → Ran ev (run :: runs) ev'

theorem Ran.append {ev ev₁ ev' : Evaluator ρ} {xs ys : List StepRun} (h : Ran ev xs ev₁)
    (h' : Ran ev₁ ys ev') : Ran ev (xs ++ ys) ev' := by
  induction h with
  | nil => exact h'
  | cons hevaluate hrolled _ ih => exact .cons hevaluate hrolled (ih h')

namespace Execute

variable {view : View} {o : Origin} {results : Dict Value} {ev ev' : Evaluator ρ}

theorem ran_of_traceStep {step : StepDef} {run : StepRun}
    (h : traceStep view o results step ev = (.ok run, ev')) : Ran ev [run] ev' := by
  obtain ⟨⟨v, rolls⟩, ev₁, hevaluate, h⟩ := run_bind_eq_ok_iff.mp h
  cases h
  rw [evaluate] at hevaluate
  split at hevaluate
  · rename_i hformula
    cases hevaluate
    exact .cons hformula (Evaluator.rolled_of_evaluate hformula) (.nil _)
  · cases hevaluate

theorem ran_of_traceSteps {gated : Bool} {steps : List StepDef} {results' : Dict Value}
    {runs : List StepRun}
    (h : traceSteps gated view o steps results ev = (.ok (results', runs), ev')) :
    Ran ev runs ev' := by
  induction steps generalizing results ev runs with
  | nil =>
      cases h
      exact .nil _
  | cons step rest ih =>
      obtain ⟨run, ev₁, hstep, h⟩ := run_bind_eq_ok_iff.mp h
      simp only at h
      split at h
      · cases h
      · obtain ⟨⟨results'', more⟩, ev₂, hrest, h⟩ := run_bind_eq_ok_iff.mp h
        cases h
        exact (ran_of_traceStep hstep).append (ih hrest)

theorem ran_of_traceTargets {steps : List StepDef} {targets : List String} {runs : List StepRun}
    (h : traceTargets view o steps results targets ev = (.ok runs, ev')) : Ran ev runs ev' := by
  induction targets generalizing ev runs with
  | nil =>
      cases h
      exact .nil _
  | cons target rest ih =>
      obtain ⟨⟨_, first⟩, ev₁, hfirst, h⟩ := run_bind_eq_ok_iff.mp h
      obtain ⟨more, ev₂, hrest, h⟩ := run_bind_eq_ok_iff.mp h
      cases h
      exact (ran_of_traceSteps hfirst).append (ih hrest)

theorem ran_of_tracePhases {gated : Bool} {d : CommandDef} {targets : List String}
    {runs : List StepRun} (h : tracePhases gated view o d targets ev = (.ok runs, ev')) :
    Ran ev runs ev' := by
  obtain ⟨⟨_, game⟩, ev₁, hgame, h⟩ := run_bind_eq_ok_iff.mp h
  obtain ⟨perTarget, ev₂, htargets, h⟩ := run_bind_eq_ok_iff.mp h
  obtain ⟨⟨_, actor⟩, ev₃, hactor, h⟩ := run_bind_eq_ok_iff.mp h
  cases h
  exact ((ran_of_traceSteps hgame).append (ran_of_traceTargets htargets)).append
    (ran_of_traceSteps hactor)

/-- The steps of a command run after its prerequisites have been evaluated. -/
theorem ran_of_traceCommand {rules : Rules} {command : String} {d : CommandDef} {request : Request}
    {s : State} {runs : List StepRun}
    (h : traceCommand rules command d request s ev = (.ok runs, ev')) : ∃ ev₁, Ran ev₁ runs ev' := by
  cases hparams : checkParams d request.input s with
  | error e =>
      simp only [traceCommand, hparams] at h
      cases h
  | ok params =>
      simp only [traceCommand, hparams] at h
      obtain ⟨_, ev₁, -, h⟩ := run_bind_eq_ok_iff.mp h
      exact ⟨ev₁, ran_of_tracePhases h⟩

end Execute

theorem Rules.ran_of_trace {rules : Rules} {request : Request} {s : State} {last : Option String}
    {ev ev' : Evaluator ρ} {runs : List StepRun}
    (h : rules.trace request s last ev = (.ok (.steps runs), ev')) : ∃ ev₁, Ran ev₁ runs ev' := by
  simp only [trace] at h
  split at h
  · cases h
  · split at h
    · rename_i b _
      -- A built-in command runs no steps.
      obtain ⟨hresult, -⟩ := Prod.mk.inj h
      generalize (b.run request.input s last rules.manifest ev).1 = result at hresult
      cases result with
      | error e => cases hresult
      | ok events => cases hresult
    · split at h
      · cases h
      · split at h
        · rename_i htrace
          cases h
          exact Execute.ran_of_traceCommand htrace
        · cases h
        · cases h

end

end GameTable
