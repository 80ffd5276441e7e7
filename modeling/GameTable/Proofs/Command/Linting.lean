import GameTable.Manifest.Lint
import GameTable.Proofs.Command.Gate
import GameTable.Proofs.Dict.Lookup
import GameTable.Proofs.Formula.Evaluator

/-!
# Commands of a manifest that was checked

Checking a manifest compiles its formulas, each once and for itself. That is
enough for the rest of the game: no formula of a checked manifest is found to
be malformed, too deep, or to call what there is not, when the command is run
(`Rules.execute_fails_late`). What is left to go wrong depends on what the
formula is given.

Executing asks the evaluator and not the manifest for the program of a formula,
so this is about evaluators that compile as if they remembered nothing. A new
evaluator does, and executing keeps it so.
-/

namespace GameTable

/-! ## What is checked -/

/-- Whether a text is a formula. -/
def Program.Compiles (source : String) : Prop := ∃ program, Program.compile source = .ok program

theorem compiles_of_lintFormula {command step formula : String} {part : CommandPart}
    (h : lintFormula command part step formula = .ok ()) : Program.Compiles formula := by
  rw [lintFormula] at h
  split at h
  · exact ⟨_, ‹_›⟩
  · cases h

theorem StepDef.compiles_of_lint {command : String} {part : CommandPart} {step : StepDef}
    {warnings : List LintWarning} (h : step.lint command part = .ok warnings) :
    Program.Compiles step.formula :=
  compiles_of_lintFormula (andThen_eq_ok_iff.mp h).1

/-- A check over a list passes only what passes by itself. -/
theorem exists_of_lintAll_eq_ok {α : Type} {check : α → Except ManifestError (List LintWarning)}
    {xs : List α} {warnings : List LintWarning} (h : lintAll check xs = .ok warnings) :
    ∀ x ∈ xs, ∃ found, check x = .ok found := by
  obtain ⟨founds, hfounds, -⟩ := bind_eq_ok_iff.mp h
  clear h
  induction xs generalizing founds with
  | nil => simp
  | cons x rest ih =>
      rw [List.mapM_cons] at hfounds
      obtain ⟨found, hx, hfounds⟩ := bind_eq_ok_iff.mp hfounds
      obtain ⟨more, hrest, -⟩ := bind_eq_ok_iff.mp hfounds
      rw [List.forall_mem_cons]
      exact ⟨⟨found, hx⟩, ih more hrest⟩

theorem CommandDef.compiles_of_lint {name : String} {d : CommandDef}
    {warnings : List LintWarning} (h : d.lint name = .ok warnings) :
    ∀ formula ∈ d.formulas, Program.Compiles formula := by
  obtain ⟨hprereqs, h⟩ := andThen_eq_ok_iff.mp h
  obtain ⟨_, hgame, h⟩ := bind_eq_ok_iff.mp h
  obtain ⟨_, htargets, h⟩ := bind_eq_ok_iff.mp h
  obtain ⟨_, hactor, -⟩ := bind_eq_ok_iff.mp h
  have hsteps : ∀ step ∈ d.game ++ d.targets ++ d.actor, ∃ part found,
      step.lint name part = .ok found := by
    intro step hstep
    rcases List.mem_append.mp hstep with hstep | hstep
    · rcases List.mem_append.mp hstep with hstep | hstep
      · exact ⟨_, exists_of_lintAll_eq_ok hgame step hstep⟩
      · exact ⟨_, exists_of_lintAll_eq_ok htargets step hstep⟩
    · exact ⟨_, exists_of_lintAll_eq_ok hactor step hstep⟩
  intro formula hformula
  rcases List.mem_append.mp hformula with hformula | hformula
  · obtain ⟨p, hp, rfl⟩ := List.mem_map.mp hformula
    exact compiles_of_lintFormula (forM_eq_ok_iff.mp hprereqs p hp)
  · obtain ⟨step, hstep, rfl⟩ := List.mem_map.mp hformula
    obtain ⟨_, _, hlint⟩ := hsteps step hstep
    exact StepDef.compiles_of_lint hlint

/-- The formulas of a manifest without errors are formulas. -/
theorem Manifest.compiles_of_lint {m : Manifest} {warnings : List LintWarning}
    (h : m.lint = .ok warnings) {name : String} {d : CommandDef} (hd : m.command? name = some d) :
    ∀ formula ∈ d.formulas, Program.Compiles formula := by
  obtain ⟨_, hcommands, -⟩ := bind_eq_ok_iff.mp h
  obtain ⟨_, hlint⟩ := exists_of_lintAll_eq_ok hcommands _ (Dict.mem_toList_iff.mpr hd)
  exact CommandDef.compiles_of_lint hlint

/-! ## What can fail after that -/

variable {ρ : Type} [Roller ρ]

namespace Exec

/-- A failing formula fails late, on evaluators that compile as if they remembered nothing. -/
structure FailsLate {α : Type} (x : Exec ρ α) : Prop where
  continues : x.Continues
  late : ∀ {ev}, ev.Faithful → ∀ {step cause ev'},
    x ev = (.error (.refused (.formula step cause)), ev') → cause.isCompileError = false

omit [Roller ρ] in
theorem FailsLate.bind {α β : Type} {x : Exec ρ α} {next : α → Exec ρ β} (hx : x.FailsLate)
    (hnext : ∀ a, (next a).FailsLate) : (x >>= next).FailsLate where
  continues := hx.continues.bind fun a => (hnext a).continues
  late {ev} hev {step cause ev'} h := by
    rcases run_bind_eq_error h with h | ⟨a, t, ht, h⟩
    · exact hx.late hev h
    · have hcontinues := hx.continues.continues ev
      rw [ht] at hcontinues
      exact (hnext a).late (hev.of_continues hcontinues) h

theorem closed_failsLate : Closed (ρ := ρ) Program.Compiles fun {_} x => x.FailsLate where
  pure a := ⟨closed_continues.pure a, fun _ _ _ _ h => by cases h⟩
  evaluate step formula context hcompiles := by
    refine ⟨closed_continues.evaluate step context trivial, ?_⟩
    intro ev hev name cause ev' h
    obtain ⟨program, hcompile⟩ := hcompiles
    have hlate := Evaluator.late_evaluate hev hcompile context
    rw [Execute.evaluate] at h
    split at h
    · cases h
    · rename_i heval
      cases h
      rw [heval] at hlate
      exact hlate.isCompileError_eq rfl
  unmet name error := ⟨closed_continues.unmet name error, fun _ _ _ _ h => by cases h⟩
  -- A prerequisite that is no condition is a formula that fails, for its type.
  unfit step fault := ⟨closed_continues.unfit step fault, fun _ _ _ _ h => by cases h; rfl⟩
  bind := FailsLate.bind

end Exec

/-- A built-in command leaves an evaluator that compiles as before. -/
theorem Builtin.continues_run {b : Builtin} {input : Input} {s : State} {last : Option String}
    {manifest : Manifest} (ev : Evaluator ρ) :
    ev.Continues (b.run input s last manifest ev).2 := by
  cases b with
  | roll =>
      rw [run, rollDice]
      split
      · exact .refl ev
      · rename_i dice _
        have hroll : ev.Continues (ev.roll dice).2 := Evaluator.continues_of_compiled rfl rfl
        split <;> rename_i h <;> rw [h] at hroll <;> exact hroll
  | _ => exact .refl ev

namespace Rules

/-- Executing a request leaves an evaluator that compiles as before. -/
theorem continues_execute (rules : Rules) (request : Request) (s : State) (last : Option String)
    (ev : Evaluator ρ) : ev.Continues (rules.execute request s last ev).2 := by
  have hrun : ∀ {d result ev'},
      Execute.runCommand rules (canonicalName request.input.command) d request s ev
        = (result, ev') → ev.Continues ev' := by
    intro d result ev' h
    have hrun := (Exec.closed_continues (ρ := ρ)).runCommand_of_refuse
      ⟨fun ev => .refl ev⟩ (fun e _ => ⟨fun ev => .refl ev⟩)
      (fun formula (_ : formula ∈ d.formulas) => trivial) rules
      (canonicalName request.input.command) request s
    have hcontinues := hrun.continues ev
    rw [h] at hcontinues
    exact hcontinues
  have houtcome := rules.execute_outcome request s last ev
  generalize rules.execute request s last ev = result at houtcome ⊢
  cases houtcome with
  | frozen | denied | misused => exact .refl ev
  | builtin => exact Builtin.continues_run ev
  | failed _ _ h | asked _ h | done _ h => exact hrun h

theorem isCompileError_eq_false_of_execute {rules : Rules} {request : Request} {s : State}
    {last : Option String} {warnings : List LintWarning}
    (hlint : rules.manifest.lint = .ok warnings) {ev ev' : Evaluator ρ} (hev : ev.Faithful)
    {step : String} {cause : FormulaError}
    (h : rules.execute request s last ev = (.error (.formula step cause), ev')) :
    cause.isCompileError = false := by
  obtain ⟨d, hadmits, hrun⟩ := runCommand_of_execute_eq_error h rfl
  have hcompiles := Manifest.compiles_of_lint hlint (admit_eq_ok_iff.mp hadmits.admitted).1
  have hlate := (Exec.closed_failsLate (ρ := ρ)).runCommand_of_refuse
    ⟨⟨fun ev => .refl ev⟩, fun _ _ _ _ h => by cases h⟩
    (fun e he => ⟨⟨fun ev => .refl ev⟩, fun _ _ _ _ h => by cases h; cases he⟩) hcompiles rules
    (canonicalName request.input.command) request s
  exact hlate.late hev hrun

/-- A formula that compiles fails for what it is given and for nothing that shows without running
it, be it run by itself or by a command of a manifest that was checked. Executing keeps the
evaluator one that compiles as if it remembered nothing. -/
theorem execute_fails_late (rules : Rules) (request : Request) (s : State) (last : Option String)
    {ev : Evaluator ρ} (hev : ev.Faithful) :
    (∀ warnings, rules.manifest.lint = .ok warnings → ∀ step cause ev',
      rules.execute request s last ev = (.error (.formula step cause), ev') →
        cause.isCompileError = false)
    ∧ (∀ source program, Program.compile source = .ok program → ∀ context e,
      (ev.run program context).1.result = .error e
        ∨ (ev.evaluate source context).1.result = .error e → e.isCompileError = false)
    ∧ (rules.execute request s last ev).2.Faithful := by
  refine ⟨fun warnings hlint step cause ev' h => isCompileError_eq_false_of_execute hlint hev h,
    ?_, hev.of_continues (continues_execute rules request s last ev)⟩
  intro source program hcompile context e he
  rcases he with he | he
  · exact (Evaluator.late_run hcompile ev context).isCompileError_eq he
  · exact (Evaluator.late_evaluate hev hcompile context).isCompileError_eq he

/-- The fighter attacks when there are no dice left. -/
theorem execute_fails_late_skirmish :
    let request : Request := .ofInput ⟨"Attack", "fighter", [], ∅⟩
    let noDice : Evaluator DiceCup := .new (.scripted []) 100
    (∃ warnings, skirmish.manifest.lint = .ok warnings)
      ∧ (∃ cause ev, skirmish.execute request fightersTurn none noDice
          = (.error (.formula "hit" cause), ev)
        ∧ cause = .dice (.scriptExhausted "1d20") ∧ cause.isCompileError = false ∧ ev.Faithful)
      ∧ Program.Compiles "1 / (2 - 2)"
      ∧ ∃ e, (noDice.evaluate "1 / (2 - 2)" ∅).1.result = .error e
        ∧ e = .divisionByZero ∧ e.isCompileError = false := by
  intro request noDice
  have hfaithful : noDice.Faithful := Evaluator.faithful_new _ _
  obtain ⟨hexecute, hformula, hkept⟩ :=
    execute_fails_late skirmish request fightersTurn none hfaithful
  have hlint : skirmish.manifest.lint = .ok [.unknownRestricted "encounter_end"] := by
    decide +kernel
  have hdivision : (noDice.evaluate "1 / (2 - 2)" ∅).1.result = .error .divisionByZero := by
    decide +kernel
  obtain ⟨program, hcompile⟩ : Program.Compiles "1 / (2 - 2)" := by
    have hok : (Program.compile "1 / (2 - 2)").isOk = true := by decide +kernel
    rcases h : Program.compile "1 / (2 - 2)" with e | program
    · rw [h] at hok
      cases hok
    · exact ⟨program, h⟩
  refine ⟨⟨_, hlint⟩, ?_, ⟨program, hcompile⟩, .divisionByZero, hdivision, rfl, ?_⟩
  · have hresult : (skirmish.execute request fightersTurn none noDice).1
        = .error (.formula "hit" (.dice (.scriptExhausted "1d20"))) := by
      rw [execute_of_admits admits_attack]
      decide +kernel
    rcases h : skirmish.execute request fightersTurn none noDice with ⟨result, ev⟩
    rw [h] at hresult hkept
    obtain rfl := hresult
    exact ⟨_, ev, rfl, rfl, hexecute _ hlint _ _ _ h, hkept⟩
  · exact hformula _ _ hcompile _ _ (.inr hdivision)

end Rules

end GameTable
