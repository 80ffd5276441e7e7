import GameTable.Proofs.Command.Parameters
import GameTable.Proofs.Command.Prerequisites
import GameTable.Proofs.Command.Restriction

/-!
# Phase by phase

The steps of a command run one after the other on one evaluator, and what they
come to is collected in one list. Where the dice do not depend on what was
rolled before, nothing passes from one step to another but results, and these
pass only along a phase and from the game phase to the others. So the events of
a command are those of its game phase, then a block for each target, then those
of its actor phase, where the block of a target comes of the results of the
game phase and that target, and the actor phase comes of the results of the game
phase (`Rules.execute_phases`). Naming the targets in another order changes the
order of their blocks and nothing else.
-/

namespace GameTable

open Execute

variable {ρ : Type} [Roller ρ] {answer : String → Except DiceError Int}

/-! ## Rollers that go by the notation -/

namespace Roller

/-- The roller after dice were rolled. -/
def after (r : ρ) (earlier : List String) : ρ := earlier.foldl (fun r dice => (roll r dice).2) r

/-- Has the same answer for the same dice, whatever was rolled before. -/
def Answers (answer : String → Except DiceError Int) (r : ρ) : Prop :=
  ∀ earlier dice, (roll (after r earlier) dice).1 = answer dice

theorem Answers.next {r : ρ} (h : Answers answer r) (dice : String) :
    Answers answer (roll r dice).2 := fun earlier => h (dice :: earlier)

theorem rollAlike_answers (answer : String → Except DiceError Int) :
    Formula.RollAlike fun r r' : ρ => Answers answer r ∧ Answers answer r' where
  total := fun ⟨h, h'⟩ dice => (h' [] dice).trans (h [] dice).symm
  next := fun ⟨h, h'⟩ dice => ⟨h.next dice, h'.next dice⟩

end Roller

/-- An evaluator that goes by the notation, later on. -/
structure Evaluator.Like (answer : String → Except DiceError Int) (first ev : Evaluator ρ) :
    Prop where
  continues : first.Continues ev
  answers : Roller.Answers answer ev.roller

theorem Evaluator.Like.refl {ev : Evaluator ρ} (h : Roller.Answers answer ev.roller) :
    Like answer ev ev := ⟨.refl ev, h⟩

section

variable {first ev : Evaluator ρ}

theorem Evaluator.Like.evaluate (hfirst : Roller.Answers answer first.roller)
    (h : Like answer first ev) (source : String) (context : Dict Value) :
    (ev.evaluate source context).1 = (first.evaluate source context).1
      ∧ Like answer first (ev.evaluate source context).2 := by
  obtain ⟨hanswer, -, hroller⟩ := evaluate_of_continues h.continues ⟨hfirst, h.answers⟩
    (fun _ _ _ => Roller.rollAlike_answers answer) context
  exact ⟨hanswer, h.continues.trans (ev.continues_evaluate source context), hroller⟩

namespace Exec

/-- Comes to the same on an evaluator later on, and leaves one later on. -/
structure Steady (answer : String → Except DiceError Int) (first : Evaluator ρ) {α : Type}
    (x : Exec ρ α) : Prop where
  answer_eq : ∀ {ev}, first.Like answer ev → (x ev).1 = (x first).1
  like : ∀ {ev}, first.Like answer ev → first.Like answer (x ev).2

theorem Steady.like_of_eq {α : Type} {x : Exec ρ α} (hx : x.Steady answer first)
    (hev : first.Like answer ev) {result : Except Stop α} {ev' : Evaluator ρ}
    (h : x ev = (result, ev')) : first.Like answer ev' := by
  have hlike := hx.like hev
  rw [h] at hlike
  exact hlike

theorem Steady.bind {α β : Type} {x : Exec ρ α} {next : α → Exec ρ β}
    (hfirst : Roller.Answers answer first.roller) (hx : x.Steady answer first)
    (hnext : ∀ a, (next a).Steady answer first) : (x >>= next).Steady answer first := by
  have hboth {ev : Evaluator ρ} (hev : first.Like answer ev) :
      ((x >>= next) ev).1 = ((x >>= next) first).1
        ∧ first.Like answer ((x >>= next) ev).2 := by
    have hlike := hx.like hev
    have hlike' := hx.like (.refl hfirst)
    exact run_bind_both (Q := fun r r' => r'.1 = r.1 ∧ first.Like answer r'.2) (hx.answer_eq hev)
      (fun _ => ⟨rfl, hlike⟩)
      fun a => ⟨((hnext a).answer_eq hlike).trans ((hnext a).answer_eq hlike').symm,
        (hnext a).like hlike⟩
  exact ⟨fun hev => (hboth hev).1, fun hev => (hboth hev).2⟩

theorem closed_steady (hfirst : Roller.Answers answer first.roller) :
    Closed (fun _ => True) fun {_} x => x.Steady answer first where
  pure _ := ⟨fun _ => rfl, id⟩
  evaluate step formula context _ := by
    constructor
    · intro ev hev
      rw [evaluate_fst, evaluate_fst, (hev.evaluate hfirst formula context).1]
    · intro ev hev
      rw [evaluate_snd]
      exact (hev.evaluate hfirst formula context).2
  unmet _ _ := ⟨fun _ => rfl, id⟩
  unfit _ _ := ⟨fun _ => rfl, id⟩
  bind := Steady.bind hfirst

end Exec

end

/-! ## What a phase comes to -/

namespace Execute

/-- What a step comes to on the results of others: its own result, and its events. -/
def stepOutcome (transcribe : Bool) (view : View) (o : Origin) (ev : Evaluator ρ)
    (results : Dict Value) (step : StepDef) : Option (Value × List Event) :=
  match (ev.evaluate step.formula
    (view.context o.actor (if o.target.isEmpty then none else some o.target) results)).1 with
  | ⟨.ok v, rolls⟩ => some (v, stepEvents transcribe o step v rolls)
  | ⟨.error _, _⟩ => none

/-- What a phase comes to: the results, and the events of the steps in order. Every step sees the
results of the steps before it; it is evaluated as if no dice had been rolled. -/
def phaseOutcome (transcribe : Bool) (view : View) (o : Origin) (ev : Evaluator ρ) :
    List StepDef → Dict Value → Option (Dict Value × List Event)
  | [], results => some (results, [])
  | step :: rest, results => do
    let (v, events) ← stepOutcome transcribe view o ev results step
    let (results, more) ← phaseOutcome transcribe view o ev rest (results.insert step.name v)
    return (results, events ++ more)

/-- The events of a phase, if it comes to its end. -/
def phaseEvents (transcribe : Bool) (view : View) (o : Origin) (ev : Evaluator ρ)
    (steps : List StepDef) (results : Dict Value) : List Event :=
  ((phaseOutcome transcribe view o ev steps results).map Prod.snd).getD []

variable {transcribe gated : Bool} {view : View} {o : Origin} {steps : List StepDef}
  {results results' : Dict Value} {events : List Event} {first ev ev' : Evaluator ρ}

theorem exists_phaseOutcome_eq
    (h : phaseOutcome transcribe view o ev steps results = some (results', events)) :
    ∃ after, phaseOutcome transcribe view o ev steps results
      = some (after, phaseEvents transcribe view o ev steps results) := by
  refine ⟨results', ?_⟩
  rw [phaseEvents, h]
  rfl

theorem stepOutcome_of_runStep (hfirst : Roller.Answers answer first.roller)
    (hev : first.Like answer ev) {step : StepDef} {v : Value}
    (h : runStep transcribe view o results step ev = (.ok (v, events), ev')) :
    stepOutcome transcribe view o first results step = some (v, events) := by
  obtain ⟨⟨v', rolls⟩, t, heval, h⟩ := run_bind_eq_ok_iff.mp h
  cases h
  have hanswer := congrArg Prod.fst heval
  rw [evaluate_fst, (hev.evaluate hfirst ..).1] at hanswer
  rw [stepOutcome]
  rcases hrun : (first.evaluate step.formula (view.context o.actor
    (if o.target.isEmpty then none else some o.target) results)).1 with ⟨e | v'', rolls'⟩
  · rw [hrun] at hanswer
    cases hanswer
  · rw [hrun] at hanswer
    cases hanswer
    rfl

/-- A phase that comes to its end comes to what its steps come to by themselves. -/
theorem phaseOutcome_of_runSteps (hfirst : Roller.Answers answer first.roller)
    (hev : first.Like answer ev)
    (h : runSteps transcribe gated view o steps results ev = (.ok (results', events), ev')) :
    phaseOutcome transcribe view o first steps results = some (results', events) := by
  induction steps generalizing results ev events with
  | nil =>
      cases h
      rfl
  | cons step rest ih =>
      rw [runSteps] at h
      obtain ⟨⟨v, now⟩, ev₁, hstep, h⟩ := run_bind_eq_ok_iff.mp h
      have hev₁ : first.Like answer ev₁ :=
        ((Exec.closed_steady hfirst).runStep transcribe view o trivial results).like_of_eq hev hstep
      dsimp only at h
      split at h
      · cases h
      · obtain ⟨⟨results'', more⟩, ev₂, hrest, h⟩ := run_bind_eq_ok_iff.mp h
        cases h
        rw [phaseOutcome, stepOutcome_of_runStep hfirst hev hstep]
        exact congrArg (·.bind fun r => some (r.1, now ++ r.2)) (ih hev₁ hrest)

/-- The target phase comes to a block for every target, which the other targets have no part in. -/
theorem phaseOutcome_of_runTargets (hfirst : Roller.Answers answer first.roller)
    (hev : first.Like answer ev) {targets : List String}
    (h : runTargets transcribe view o steps results targets ev = (.ok events, ev')) :
    (∀ target ∈ targets, ∃ after,
        phaseOutcome transcribe view { o with target } first steps results
          = some (after, phaseEvents transcribe view { o with target } first steps results))
      ∧ events = targets.flatMap fun target =>
        phaseEvents transcribe view { o with target } first steps results := by
  induction targets generalizing ev events with
  | nil =>
      cases h
      exact ⟨by simp, rfl⟩
  | cons target rest ih =>
      rw [runTargets] at h
      obtain ⟨⟨results', block⟩, ev₁, htarget, h⟩ := run_bind_eq_ok_iff.mp h
      obtain ⟨more, ev₂, hrest, h⟩ := run_bind_eq_ok_iff.mp h
      cases h
      have hev₁ : first.Like answer ev₁ :=
        ((Exec.closed_steady hfirst).runSteps transcribe false view _ nofun (fun _ _ => trivial)
          results).like_of_eq hev htarget
      have hblock := phaseOutcome_of_runSteps hfirst hev htarget
      obtain ⟨hall, rfl⟩ := ih hev₁ hrest
      refine ⟨List.forall_mem_cons.mpr ⟨exists_phaseOutcome_eq hblock, hall⟩, ?_⟩
      rw [List.flatMap_cons, phaseEvents, hblock]
      rfl

/-- The three phases of a command, of which the last two start from the results of the first. -/
theorem phaseOutcome_of_runPhases (hfirst : Roller.Answers answer first.roller)
    (hev : first.Like answer ev) {d : CommandDef} {targets : List String}
    (h : runPhases transcribe gated view o d targets ev = (.ok events, ev')) :
    ∃ results game,
      phaseOutcome transcribe view o first d.game ∅ = some (results, game)
      ∧ (∀ target ∈ targets, ∃ after,
        phaseOutcome transcribe view { o with target } first d.targets results
          = some (after, phaseEvents transcribe view { o with target } first d.targets results))
      ∧ (∃ after, phaseOutcome transcribe view o first d.actor results
        = some (after, phaseEvents transcribe view o first d.actor results))
      ∧ events = game
        ++ (targets.flatMap fun target =>
          phaseEvents transcribe view { o with target } first d.targets results)
        ++ phaseEvents transcribe view o first d.actor results := by
  obtain ⟨⟨results, game⟩, ev₁, hgame, h⟩ := run_bind_eq_ok_iff.mp h
  obtain ⟨perTarget, ev₂, htargets, h⟩ := run_bind_eq_ok_iff.mp h
  obtain ⟨⟨results', actor⟩, ev₃, hactor, h⟩ := run_bind_eq_ok_iff.mp h
  cases h
  have hsteady := Exec.closed_steady hfirst
  have hev₁ : first.Like answer ev₁ :=
    (hsteady.runSteps transcribe gated view o (fun _ => ⟨fun _ => rfl, id⟩) (fun _ _ => trivial)
      ∅).like_of_eq hev hgame
  have hev₂ : first.Like answer ev₂ :=
    (hsteady.runTargets transcribe view o (fun _ _ => trivial) results targets).like_of_eq hev₁
      htargets
  have hactor' := phaseOutcome_of_runSteps hfirst hev₂ hactor
  obtain ⟨hblocks, rfl⟩ := phaseOutcome_of_runTargets hfirst hev₁ htargets
  refine ⟨results, game, phaseOutcome_of_runSteps hfirst hev hgame, hblocks,
    exists_phaseOutcome_eq hactor', ?_⟩
  rw [phaseEvents.eq_def transcribe view o first d.actor, hactor']
  rfl

/-- Where gated steps stop to ask, one of them came to the result that asks. -/
theorem exists_of_runSteps_asks
    (h : runSteps transcribe gated view o steps results ev = (.error .needsApproval, ev')) :
    gated = true ∧ ∃ before step after results' events more ev₁ ev₂,
      steps = before ++ step :: after
      ∧ runSteps transcribe false view o before results ev = (.ok (results', events), ev₁)
      ∧ runStep transcribe view o results' step ev₁ = (.ok (askForApproval, more), ev₂) := by
  induction steps generalizing results ev with
  | nil => cases h
  | cons first rest ih =>
      rw [runSteps] at h
      rcases run_bind_eq_error h with h | ⟨⟨v, now⟩, ev₁, hfirst, h⟩
      · have hrefuses : (runStep transcribe view o results first : Exec ρ _).Refuses :=
          Exec.closed_refuses.runStep transcribe view o trivial results
        obtain ⟨e, he⟩ := hrefuses.exists_refused h
        cases he
      · dsimp only at h
        split at h
        · rename_i hasks
          rw [Bool.and_eq_true, decide_eq_true_eq] at hasks
          obtain ⟨hgated, rfl⟩ := hasks
          exact ⟨hgated, [], first, rest, results, [], now, ev, ev₁, rfl, rfl, hfirst⟩
        · rcases run_bind_eq_error h with hrest | ⟨_, _, _, h⟩
          · obtain ⟨hgated, before, step, after, results', events, more, ev₂, ev₃, rfl, hbefore,
              hstep⟩ := ih hrest
            exact ⟨hgated, first :: before, step, after, results', now ++ events, more, ev₂, ev₃,
              rfl, runSteps_cons_eq_ok_iff.mpr ⟨v, now, ev₁, events, hfirst, hbefore, rfl⟩, hstep⟩
          · cases h

/-- Only the game phase asks. -/
theorem exists_of_runPhases_asks {d : CommandDef} {targets : List String}
    (h : runPhases transcribe gated view o d targets ev = (.error .needsApproval, ev')) :
    ∃ ev', runSteps transcribe gated view o d.game ∅ ev = (.error .needsApproval, ev') := by
  rcases run_bind_eq_error h with h | ⟨⟨results, game⟩, ev₁, -, h⟩
  · exact ⟨ev', h⟩
  · have hrefuses : (do
        let perTarget ← runTargets transcribe view o d.targets results targets
        let (_, actor) ← runSteps transcribe false view o d.actor results
        return game ++ perTarget ++ actor : Exec ρ (List Event)).Refuses :=
      (Exec.closed_refuses.runTargets transcribe view o (fun _ _ => trivial) results targets).bind
        fun _ => (Exec.closed_refuses.runSteps transcribe false view o nofun (fun _ _ => trivial)
          results).bind fun _ => Exec.closed_refuses.pure _
    obtain ⟨e, he⟩ := hrefuses.exists_refused h
    cases he

/-- Whether a command asks does not depend on its targets. -/
theorem not_asks_of_runPhases_eq_ok (hfirst : Roller.Answers answer first.roller)
    (hev : first.Like answer ev) {d : CommandDef} {targets : List String}
    (h : runPhases transcribe gated view o d targets ev = (.ok events, ev'))
    {other other' : Evaluator ρ} (hother : first.Like answer other) (targets' : List String) :
    runPhases transcribe gated view o d targets' other ≠ (.error .needsApproval, other') := by
  intro hasks
  obtain ⟨_, hasks⟩ := exists_of_runPhases_asks hasks
  obtain ⟨_, _, hgame, -⟩ := run_bind_eq_ok_iff.mp h
  have hsteady := (Exec.closed_steady hfirst).runSteps transcribe gated view o
    (fun _ => ⟨fun _ => rfl, id⟩) (fun step (_ : step ∈ d.game) => trivial) ∅
  have hsame := (hsteady.answer_eq hother).trans (hsteady.answer_eq hev).symm
  rw [hasks, hgame] at hsame
  cases hsame

variable {rules : Rules} {command : String} {d : CommandDef} {request : Request} {s : State}
  {params : Dict Value}

theorem like_of_checkPrereqs (hfirst : Roller.Answers answer first.roller)
    (hev : first.Like answer ev) {context : Dict Value} {prereqs : List PrereqDef}
    (h : prereqs.forM (checkPrereq context) ev = (.ok (), ev')) : first.Like answer ev' :=
  ((Exec.closed_steady hfirst).checkPrereqs context fun _ _ => trivial).like_of_eq hev h

/-- What a command whose parameters are in order comes to. -/
theorem phaseOutcome_of_runCommand (hfirst : Roller.Answers answer first.roller)
    (hev : first.Like answer ev) (hparams : checkParams d request.input s = .ok params)
    (hview : view = View.of s rules.compendium rules.manifest params request.approved)
    (ho : o = ⟨request.input.actor, "", command, none⟩)
    (h : runCommand rules command d request s ev = (.ok events, ev')) :
    ∃ results game,
      phaseOutcome rules.transcribe view o first d.game ∅ = some (results, game)
      ∧ (∀ target ∈ d.resolveTargets request.input.targets params, ∃ after,
        phaseOutcome rules.transcribe view { o with target } first d.targets results
          = some (after, phaseEvents rules.transcribe view { o with target } first d.targets
            results))
      ∧ (∃ after, phaseOutcome rules.transcribe view o first d.actor results
        = some (after, phaseEvents rules.transcribe view o first d.actor results))
      ∧ events = game
        ++ ((d.resolveTargets request.input.targets params).flatMap fun target =>
          phaseEvents rules.transcribe view { o with target } first d.targets results)
        ++ phaseEvents rules.transcribe view o first d.actor results := by
  obtain ⟨params', _, _, ev₁, hparams', rfl, rfl, hprereqs, hphases⟩ :=
    exists_of_runCommand h nofun
  obtain rfl := Except.ok.inj (hparams'.symm.trans hparams)
  rw [← hview, ← ho] at hphases
  exact phaseOutcome_of_runPhases hfirst (like_of_checkPrereqs hfirst hev hprereqs) hphases

/-- A command that has not asked does not ask when it has other targets. -/
theorem not_asks_of_runCommand_eq_ok (hfirst : Roller.Answers answer first.roller)
    (hev : first.Like answer ev) (hparams : checkParams d request.input s = .ok params)
    (h : runCommand rules command d request s ev = (.ok events, ev')) {request' : Request}
    (hparams' : checkParams d request'.input s = .ok params)
    (hactor : request'.input.actor = request.input.actor)
    (happroved : request'.approved = request.approved) {other other' : Evaluator ρ}
    (hother : first.Like answer other) :
    runCommand rules command d request' s other ≠ (.error .needsApproval, other') := by
  intro hasks
  obtain ⟨params₁, _, _, ev₁, hparams₁, rfl, rfl, hprereqs, hphases⟩ :=
    exists_of_runCommand h nofun
  obtain ⟨params₂, _, _, ev₂, hparams₂, rfl, rfl, hprereqs', hphases'⟩ :=
    exists_of_runCommand hasks nofun
  obtain rfl := Except.ok.inj (hparams₁.symm.trans hparams)
  obtain rfl := Except.ok.inj (hparams₂.symm.trans hparams')
  rw [hactor, happroved] at hphases'
  exact not_asks_of_runPhases_eq_ok hfirst (like_of_checkPrereqs hfirst hev hprereqs) hphases
    (like_of_checkPrereqs hfirst hother hprereqs') _ hphases'

end Execute

/-- The same request with its targets in another order. It may have been typed otherwise. -/
structure Request.Reorders (request request' : Request) : Prop where
  command : request'.input.command = request.input.command
  actor : request'.input.actor = request.input.actor
  params : request'.input.params = request.input.params
  approved : request'.approved = request.approved
  targets : request'.input.targets.Perm request.input.targets

namespace Rules

variable {rules : Rules} {request : Request} {s : State} {last : Option String}
  {ev ev' : Evaluator ρ}

/-- Whether running a request ends in a question to the game master. -/
structure Asks (rules : Rules) (request : Request) (s : State) (ev : Evaluator ρ) : Prop where
  unapproved : request.approved = false
  adjudicated : canonicalName request.input.command ∈ rules.manifest.adjudicated
  returns : rules.GameStepReturns request s ev askForApproval

/-- A command that ends in a question had a step that asked. -/
theorem asks_of_runCommand {d : CommandDef} (hadmits : rules.Admits request s d)
    (h : runCommand rules (canonicalName request.input.command) d request s ev
      = (.error .needsApproval, ev')) : rules.Asks request s ev := by
  obtain ⟨params, view, targets, ev₁, hparams, rfl, rfl, hprereqs, hphases⟩ :=
    exists_of_runCommand h nofun
  obtain ⟨_, hgame⟩ := exists_of_runPhases_asks hphases
  obtain ⟨hgated, before, step, after, results, events, more, ev₂, ev₃, hsplit, hbefore, hstep⟩ :=
    exists_of_runSteps_asks hgame
  rw [Bool.and_eq_true, Bool.not_eq_true'] at hgated
  exact ⟨hgated.1, of_decide_eq_true hgated.2,
    .intro hadmits hparams rfl rfl hsplit hprereqs hbefore hstep⟩

/-- What a command that has succeeded without asking has come to. -/
theorem exists_of_execute_eq_ok_of_not_asks {events : List Event}
    (hmanifest : isBuiltin (canonicalName request.input.command) = false)
    (hasks : ¬ rules.Asks request s ev)
    (h : rules.execute request s last ev = (.ok events, ev')) :
    ∃ d, rules.Admits request s d
      ∧ runCommand rules (canonicalName request.input.command) d request s ev
        = (.ok events, ev') := by
  obtain ⟨d, result, hadmits, hrun, rfl | ⟨rfl, -⟩⟩ := exists_of_execute_eq_ok hmanifest h
  · exact ⟨d, hadmits, hrun⟩
  · exact absurd (asks_of_runCommand hadmits hrun) hasks

/-- Where the answers of the roller depend on the dice alone, the events of a command that does not
ask are those of the game phase, then a block for every target, then those of the actor
phase: each phase comes to what it comes to by itself, from the results of the game phase. The same
request with its targets in another order, made then or later, comes to the same phases and to
the same blocks, in the order of its own targets. -/
theorem execute_phases {events : List Event} (hroller : Roller.Answers answer ev.roller)
    (hmanifest : isBuiltin (canonicalName request.input.command) = false)
    (hasks : ¬ rules.Asks request s ev)
    (h : rules.execute request s last ev = (.ok events, ev')) :
    ∃ (d : CommandDef) (params : Dict Value) (view : View) (o : Origin) (results : Dict Value)
      (game : List Event) (block : String → List Event) (actor : List Event),
      rules.Admits request s d ∧ checkParams d request.input s = .ok params
      ∧ view = View.of s rules.compendium rules.manifest params request.approved
      ∧ o = ⟨request.input.actor, "", canonicalName request.input.command, none⟩
      ∧ phaseOutcome rules.transcribe view o ev d.game ∅ = some (results, game)
      ∧ (∀ target ∈ d.resolveTargets request.input.targets params, ∃ after,
        phaseOutcome rules.transcribe view { o with target } ev d.targets results
          = some (after, block target))
      ∧ (∃ after, phaseOutcome rules.transcribe view o ev d.actor results = some (after, actor))
      ∧ events = game ++ (d.resolveTargets request.input.targets params).flatMap block ++ actor
      ∧ ∀ (request' : Request) last' (other : Evaluator ρ) events' other',
        request.Reorders request' → ev.Continues other → Roller.Answers answer other.roller →
        rules.execute request' s last' other = (.ok events', other') →
        (d.resolveTargets request'.input.targets params).Perm
            (d.resolveTargets request.input.targets params)
          ∧ events' = game ++ (d.resolveTargets request'.input.targets params).flatMap block
            ++ actor := by
  obtain ⟨d, hadmits, hrun⟩ := exists_of_execute_eq_ok_of_not_asks hmanifest hasks h
  obtain ⟨params, _, _, _, hparams, -⟩ := exists_of_runCommand hrun nofun
  have hev : ev.Like answer ev := .refl hroller
  obtain ⟨results, game, hgame, hblocks, hactor, hevents⟩ :=
    phaseOutcome_of_runCommand hroller hev hparams rfl rfl hrun
  refine ⟨d, params, _, _, results, game, _, _, hadmits, hparams, rfl, rfl, hgame, hblocks, hactor,
    hevents, ?_⟩
  intro request' last' other events' other' hsame hcontinues hanswers h'
  refine ⟨CommandDef.resolveTargets_perm hsame.targets d params, ?_⟩
  have hother : ev.Like answer other := ⟨hcontinues, hanswers⟩
  rw [← hsame.command] at hmanifest
  obtain ⟨d', result, hadmits', hrun', hresult⟩ := exists_of_execute_eq_ok hmanifest h'
  have hd := (admit_eq_ok_iff.mp hadmits.admitted).1
  have hd' := (admit_eq_ok_iff.mp hadmits'.admitted).1
  rw [hsame.command] at hd' hrun'
  obtain rfl := Option.some.inj (hd.symm.trans hd')
  obtain ⟨params', _, _, _, hparams', -⟩ :=
    exists_of_runCommand hrun' (ne_refused hresult)
  obtain rfl : params' = params := by
    have hvalid := (checkParams_eq_ok_iff.mp hparams).2
    have hvalid' := (checkParams_eq_ok_iff.mp hparams').2
    rw [hsame.params] at hvalid'
    exact Except.ok.inj (hvalid'.symm.trans hvalid)
  rcases hresult with rfl | ⟨rfl, -⟩
  · obtain ⟨results', game', hgame', -, -, hevents'⟩ :=
      phaseOutcome_of_runCommand hroller hother hparams' (by rw [hsame.approved])
        (by rw [hsame.actor]) hrun'
    cases hgame.symm.trans hgame'
    exact hevents'
  · exact absurd hrun' (not_asks_of_runCommand_eq_ok hroller hev hparams hrun hparams' hsame.actor
      hsame.approved hother)

/-- A command whose steps would show if they saw the results of another target. -/
def volley : CommandDef :=
  { name := "volley", params := [], prereqs := [], hint := "", help := "", usage := "",
    turn := none,
    game := [⟨"aim", "roll('1d20')", "", none⟩],
    targets := [⟨"shot", "has(steps.shot) ? 'again' : target.id", "HintEvent", none⟩],
    actor := [⟨"rest", "has(steps.shot) ? 'after a shot' : string(steps.aim)", "HintEvent", none⟩] }

def archery : Rules := ⟨⟨[], [], .ofList [("volley", volley)]⟩, .empty, false⟩

def shooting (targets : List String) : Request := .ofInput ⟨"volley", gameMaster, targets, ∅⟩

theorem answers_fixed (total : Int) :
    Roller.Answers (fun dice => (DiceCup.roll (.fixed total) dice).1) (DiceCup.fixed total) := by
  have hroll : ∀ dice, (DiceCup.roll (.fixed total) dice).2 = .fixed total := by
    intro dice
    rw [DiceCup.roll]
    split <;> rfl
  have hafter : ∀ earlier, Roller.after (DiceCup.fixed total) earlier = .fixed total := by
    intro earlier
    induction earlier with
    | nil => rfl
    | cons dice rest ih =>
        rw [Roller.after, List.foldl_cons]
        exact (congrArg (Roller.after · rest) (hroll dice)).trans ih
  intro earlier dice
  rw [hafter]
  rfl

/-- The game master shoots at a goblin and an orc, in one order and in the other. -/
theorem execute_phases_volley :
    ∃ (game : List Event) (block : String → List Event) (actor : List Event),
      (∃ ev, archery.execute (shooting ["goblin", "orc"]) melee none calmDice
        = (.ok (game ++ (block "goblin" ++ block "orc") ++ actor), ev))
      ∧ (archery.execute (shooting ["goblin", "orc"]) melee none calmDice).1
        = .ok [.hinted "goblin", .hinted "orc", .hinted "10"]
      ∧ ∀ events ev, archery.execute (shooting ["orc", "goblin"]) melee none calmDice
          = (.ok events, ev) → events = game ++ (block "orc" ++ block "goblin") ++ actor := by
  have hresult : (archery.execute (shooting ["goblin", "orc"]) melee none calmDice).1
      = .ok [.hinted "goblin", .hinted "orc", .hinted "10"] := by
    decide +kernel
  have hfixed : Roller.Answers _ calmDice.roller := answers_fixed 10
  have hquiet : ¬ archery.Asks (shooting ["goblin", "orc"]) melee calmDice :=
    fun h => by cases h.adjudicated
  have hmanifest : isBuiltin (canonicalName (shooting ["goblin", "orc"]).input.command) = false := by
    decide +kernel
  rcases h : archery.execute (shooting ["goblin", "orc"]) melee none calmDice with ⟨result, ev⟩
  rw [h] at hresult
  obtain rfl := hresult
  obtain ⟨d, params, _, _, _, game, block, actor, hadmits, hparams, -, -, -, -, -, hevents, hother⟩ :=
    execute_phases hfixed hmanifest hquiet h
  have hd : archery.manifest.command? (canonicalName (shooting ["goblin", "orc"]).input.command)
      = some volley := by decide +kernel
  obtain rfl := Option.some.inj ((admit_eq_ok_iff.mp hadmits.admitted).1.symm.trans hd)
  have hchecked : checkParams volley (shooting ["goblin", "orc"]).input melee = .ok ∅ := by
    decide +kernel
  obtain rfl := Except.ok.inj (hchecked.symm.trans hparams)
  have htargets : volley.resolveTargets (shooting ["goblin", "orc"]).input.targets ∅
      = ["goblin", "orc"] := by decide +kernel
  have htargets' : volley.resolveTargets (shooting ["orc", "goblin"]).input.targets ∅
      = ["orc", "goblin"] := by decide +kernel
  have hblocks (a b : String) : [a, b].flatMap block = block a ++ block b := by
    rw [List.flatMap_cons, List.flatMap_singleton]
  rw [htargets, hblocks] at hevents
  refine ⟨game, block, actor, ⟨ev, by rw [← hevents]⟩, rfl, fun events ev' h' => ?_⟩
  have hsame : (shooting ["goblin", "orc"]).Reorders (shooting ["orc", "goblin"]) :=
    ⟨rfl, rfl, rfl, rfl, .swap ..⟩
  have hevents' := (hother _ _ _ _ _ hsame (.refl _) hfixed h').2
  rw [htargets', hblocks] at hevents'
  exact hevents'

end Rules

end GameTable
