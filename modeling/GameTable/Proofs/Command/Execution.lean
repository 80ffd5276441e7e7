import GameTable.Command.Execute
import GameTable.Proofs.Formula.Evaluator

/-!
# What holds of every execution

Behind its gates a command does nothing but evaluate its formulas, one after the
other, and it may stop between two of them: for a prerequisite that does not
hold or is no condition, and for an approval. So what holds of these, and is
kept by sequencing, holds of the whole (`Exec.Closed.runCommand`), from the
prerequisites on through the three phases.
-/

namespace GameTable

/-- The formulas of a command. -/
def CommandDef.formulas (d : CommandDef) : List String :=
  d.prereqs.map (·.formula) ++ (d.game ++ d.targets ++ d.actor).map (·.formula)

namespace Execute

variable {ρ : Type} [Roller ρ] {formula : String} {context : Dict Value} {ev ev' : Evaluator ρ}
  {rolls : List Formula.RollRecord}

theorem evaluate_of_ok {v : Value} (h : ev.evaluate formula context = (⟨.ok v, rolls⟩, ev'))
    (step : String) : evaluate step formula context ev = (.ok (v, rolls), ev') := by
  rw [evaluate, h]

theorem evaluate_of_error {cause : FormulaError}
    (h : ev.evaluate formula context = (⟨.error cause, rolls⟩, ev')) (step : String) :
    evaluate step formula context ev = (.error (.refused (.formula step cause)), ev') := by
  rw [evaluate, h]

/-- The result of evaluating a formula of a command is that of the formula. -/
theorem evaluate_fst (step formula : String) (context : Dict Value) (ev : Evaluator ρ) :
    (evaluate step formula context ev).1 = match (ev.evaluate formula context).1 with
      | ⟨.ok v, rolls⟩ => .ok (v, rolls)
      | ⟨.error cause, _⟩ => .error (.refused (.formula step cause)) := by
  rcases h : ev.evaluate formula context with ⟨⟨e | v, rolls⟩, ev'⟩
  · rw [evaluate_of_error h]
  · rw [evaluate_of_ok h]

theorem evaluate_snd (step formula : String) (context : Dict Value) (ev : Evaluator ρ) :
    (evaluate step formula context ev).2 = (ev.evaluate formula context).2 := by
  rcases h : ev.evaluate formula context with ⟨⟨e | v, rolls⟩, ev'⟩
  · rw [evaluate_of_error h]
  · rw [evaluate_of_ok h]

end Execute

namespace Exec

variable {ρ : Type} [Roller ρ]

/-- A property of parts of an execution that holds of the evaluation of some formulas and of every
refusal, and that sequencing keeps. -/
structure Closed (allowed : String → Prop) (P : ∀ {α : Type}, Exec ρ α → Prop) : Prop where
  pure : ∀ {α : Type} (a : α), P (pure a : Exec ρ α)
  evaluate : ∀ (step : String) {formula : String} (context : Dict Value), allowed formula →
    P (Execute.evaluate step formula context)
  unmet : ∀ {α : Type} (name error : String), P (refuse (.prereq name error) : Exec ρ α)
  unfit : ∀ {α : Type} (step : String) (fault : Formula.TypeFault),
    P (refuse (.formula step (.type fault)) : Exec ρ α)
  bind : ∀ {α β : Type} {x : Exec ρ α} {next : α → Exec ρ β},
    P x → (∀ a, P (next a)) → P (x >>= next)

namespace Closed

variable {allowed : String → Prop} {P : ∀ {α : Type}, Exec ρ α → Prop}

theorem checkPrereq (h : Closed allowed P) (context : Dict Value) {p : PrereqDef}
    (hp : allowed p.formula) : P (Execute.checkPrereq context p) := by
  refine h.bind (h.evaluate _ _ hp) fun (v, _) => ?_
  dsimp only
  split
  · exact h.pure _
  · exact h.unmet ..
  · exact h.unfit ..

theorem checkPrereqs (h : Closed allowed P) (context : Dict Value) {prereqs : List PrereqDef}
    (hp : ∀ p ∈ prereqs, allowed p.formula) : P (prereqs.forM (Execute.checkPrereq context)) := by
  induction prereqs with
  | nil => exact h.pure _
  | cons p rest ih =>
      rw [List.forall_mem_cons] at hp
      exact h.bind (h.checkPrereq context hp.1) fun _ => ih hp.2

variable (transcribe gated : Bool) (view : View) (o : Origin)

theorem runStep (h : Closed allowed P) {step : StepDef} (hstep : allowed step.formula)
    (results : Dict Value) : P (Execute.runStep transcribe view o results step) :=
  h.bind (h.evaluate _ _ hstep) fun _ => h.pure _

/-- Of gated steps it has to hold too that they may ask for an approval. -/
theorem runSteps (h : Closed allowed P)
    (happroval : gated = true → P (throw .needsApproval : Exec ρ (Dict Value × List Event)))
    {steps : List StepDef} (hsteps : ∀ step ∈ steps, allowed step.formula)
    (results : Dict Value) : P (Execute.runSteps transcribe gated view o steps results) := by
  induction steps generalizing results with
  | nil => exact h.pure _
  | cons step rest ih =>
      rw [List.forall_mem_cons] at hsteps
      refine h.bind (h.runStep transcribe view o hsteps.1 results) fun (v, events) => ?_
      dsimp only
      split
      · rename_i hasks
        exact happroval (Bool.and_eq_true_iff.mp hasks).1
      · exact h.bind (ih hsteps.2 _) fun _ => h.pure _

theorem runTargets (h : Closed allowed P) {steps : List StepDef}
    (hsteps : ∀ step ∈ steps, allowed step.formula) (results : Dict Value)
    (targets : List String) : P (Execute.runTargets transcribe view o steps results targets) := by
  induction targets with
  | nil => exact h.pure _
  | cons target rest ih =>
      exact h.bind (h.runSteps transcribe false view _ nofun hsteps results) fun _ =>
        h.bind ih fun _ => h.pure _

theorem runPhases (h : Closed allowed P)
    (happroval : gated = true → P (throw .needsApproval : Exec ρ (Dict Value × List Event)))
    {d : CommandDef} (hd : ∀ formula ∈ d.formulas, allowed formula) (targets : List String) :
    P (Execute.runPhases transcribe gated view o d targets) := by
  simp only [CommandDef.formulas, List.mem_append, List.mem_map] at hd
  have hstep : ∀ step, step ∈ d.game ∨ step ∈ d.targets ∨ step ∈ d.actor → allowed step.formula :=
    fun step hmem => hd _ (.inr ⟨step, or_assoc.mpr hmem, rfl⟩)
  refine h.bind (h.runSteps _ _ _ _ happroval (fun step hmem => hstep step (.inl hmem)) _)
    fun _ => ?_
  refine h.bind (h.runTargets _ _ _ (fun step hmem => hstep step (.inr (.inl hmem))) _ _)
    fun _ => ?_
  exact h.bind (h.runSteps _ false _ _ nofun (fun step hmem => hstep step (.inr (.inr hmem))) _)
    fun _ => h.pure _

/-- A command whose parameters are in order. -/
theorem runCommand (h : Closed allowed P)
    (happroval : P (throw .needsApproval : Exec ρ (Dict Value × List Event)))
    {rules : Rules} {command : String} {d : CommandDef} {request : Request} {s : State}
    {params : Dict Value}
    (hparams : Execute.checkParams d request.input s = .ok params)
    (hd : ∀ formula ∈ d.formulas, allowed formula) :
    P (Execute.runCommand rules command d request s) := by
  rw [Execute.runCommand]
  simp only [hparams]
  refine h.bind (h.checkPrereqs _ fun p hp => hd _ ?_) fun _ =>
    h.runPhases _ _ _ _ (fun _ => happroval) hd _
  exact List.mem_append_left _ (List.mem_map_of_mem hp)

end Closed

/-! ## How an execution stops -/

/-- Stops for a refusal if at all, and not to ask for an approval. -/
structure Refuses {α : Type} (x : Exec ρ α) : Prop where
  exists_refused : ∀ {ev ev' : Evaluator ρ} {stop},
    x ev = (.error stop, ev') → ∃ e, stop = .refused e

omit [Roller ρ] in
theorem Refuses.bind {α β : Type} {x : Exec ρ α} {next : α → Exec ρ β} (hx : x.Refuses)
    (hnext : ∀ a, (next a).Refuses) : (x >>= next).Refuses := by
  constructor
  intro ev ev' stop h
  rcases run_bind_eq_error h with h | ⟨a, t, -, h⟩
  · exact hx.exists_refused h
  · exact (hnext a).exists_refused h

theorem closed_refuses : Closed (ρ := ρ) (fun _ => True) fun {_} x => x.Refuses where
  pure _ := ⟨fun h => by cases h⟩
  evaluate step formula context _ := by
    constructor
    intro ev ev' stop h
    rcases heval : ev.evaluate formula context with ⟨⟨e | v, rolls⟩, ev₁⟩
    · cases (Execute.evaluate_of_error heval step).symm.trans h
      exact ⟨_, rfl⟩
    · cases (Execute.evaluate_of_ok heval step).symm.trans h
  unmet _ _ := ⟨fun h => by cases h; exact ⟨_, rfl⟩⟩
  unfit _ _ := ⟨fun h => by cases h; exact ⟨_, rfl⟩⟩
  bind := Refuses.bind

/-! ## The evaluator of an execution -/

/-- Leaves an evaluator that compiles as before. -/
structure Continues {α : Type} (x : Exec ρ α) : Prop where
  continues : ∀ ev : Evaluator ρ, ev.Continues (x ev).2

omit [Roller ρ] in
theorem Continues.bind {α β : Type} {x : Exec ρ α} {next : α → Exec ρ β} (hx : x.Continues)
    (hnext : ∀ a, (next a).Continues) : (x >>= next).Continues := by
  constructor
  intro ev
  have hfirst := hx.continues ev
  rcases h : x ev with ⟨stop | a, ev'⟩
  · rw [h] at hfirst
    rw [run_bind_of_error h]
    exact hfirst
  · rw [h] at hfirst
    rw [run_bind_of_ok h]
    exact hfirst.trans ((hnext a).continues ev')

theorem closed_continues : Closed (ρ := ρ) (fun _ => True) fun {_} x => x.Continues where
  pure _ := ⟨fun ev => .refl ev⟩
  evaluate step formula context _ := by
    constructor
    intro ev
    rw [Execute.evaluate_snd]
    exact ev.continues_evaluate formula context
  unmet _ _ := ⟨fun ev => .refl ev⟩
  unfit _ _ := ⟨fun ev => .refl ev⟩
  bind := Continues.bind

end Exec

end GameTable
