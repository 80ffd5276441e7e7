import Mathlib.Control.Monad.Basic
import GameTable.Proofs.Command.Execution

/-!
# Who may run a command

Between a request and the formulas of its command stand the gates: the freeze,
the built-in commands with their own rule, the commands for the game master
alone, the turn, and the parameters. `execute_outcome` lists the ends of
executing a request, one for each gate that may stop it and three for what is
behind them, so that nothing later opens the code again.

The gates come before the formulas. What stops at a gate leaves the evaluator
as it was, and what is refused behind the gates is refused for what a formula
came to (`CommandError.ofFormula`). So the kind of an error shows whether dice
may have been rolled.
-/

namespace GameTable

/-- Whether an error comes of the formulas of a command. -/
def CommandError.ofFormula : CommandError → Bool
  | .prereq .. | .formula .. => true
  | _ => false

theorem CommandError.ofFormula_eq_false_of_code {e : CommandError}
    (h : e.code ∈ ["SilentIgnore", "UnauthorizedError", "UnknownCommandError", "ParamError"]) :
    e.ofFormula = false := by
  cases e with
  | prereq => simp [code] at h
  | formula => simp [code] at h
  | _ => rfl

variable {ρ : Type}

/-! ## Behind the gates -/

/-- If it is refused, then for what a formula came to. -/
structure Exec.RefusedByFormula {α : Type} (x : Exec ρ α) : Prop where
  ofFormula : ∀ {ev e ev'}, x ev = (.error (.refused e), ev') → e.ofFormula = true

theorem Exec.RefusedByFormula.bind {α β : Type} {x : Exec ρ α} {next : α → Exec ρ β}
    (hx : x.RefusedByFormula) (hnext : ∀ a, (next a).RefusedByFormula) :
    (x >>= next).RefusedByFormula := by
  constructor
  intro ev e ev' h
  rcases run_bind_eq_error h with h | ⟨a, t, -, h⟩
  · exact hx.ofFormula h
  · exact (hnext a).ofFormula h

theorem Exec.refusedByFormula_evaluate [Roller ρ] (step formula : String) (context : Dict Value) :
    (Execute.evaluate step formula context : Exec ρ _).RefusedByFormula := by
  constructor
  intro ev e ev' h
  rw [Execute.evaluate] at h
  split at h
  · cases h
  · cases h
    rfl

theorem Exec.closed_refusedByFormula [Roller ρ] :
    Closed (ρ := ρ) (fun _ => True) fun {_} x => x.RefusedByFormula where
  pure _ := ⟨fun h => by cases h⟩
  evaluate step formula context _ := refusedByFormula_evaluate step formula context
  unmet _ _ := ⟨fun h => by cases h; rfl⟩
  unfit _ _ := ⟨fun h => by cases h; rfl⟩
  bind := RefusedByFormula.bind

namespace Execute

variable {rules : Rules} {command : String} {d : CommandDef} {request : Request} {s : State}

theorem runCommand_of_misused [Roller ρ] {e : CommandError}
    (h : checkParams d request.input s = .error e) (ev : Evaluator ρ) :
    runCommand rules command d request s ev = (.error (.refused e), ev) := by
  rw [runCommand]
  simp only [h]
  rfl

theorem ofFormula_eq_false_of_checkParams {input : Input} {e : CommandError}
    (h : checkParams d input s = .error e) : e.ofFormula = false := by
  rw [checkParams] at h
  split at h
  · cases h
    rfl
  · split at h
    · cases h
    · cases h
      rfl

end Execute

/-- A command whose parameters may not be in order. -/
theorem Exec.Closed.runCommand_of_refuse [Roller ρ] {allowed : String → Prop}
    {P : ∀ {α : Type}, Exec ρ α → Prop} (h : Closed allowed P)
    (happroval : P (throw .needsApproval : Exec ρ (Dict Value × List Event)))
    (hmisused : ∀ e, e.ofFormula = false → P (refuse e : Exec ρ (List Event)))
    {d : CommandDef} (hd : ∀ formula ∈ d.formulas, allowed formula) (rules : Rules)
    (command : String) (request : Request) (s : State) :
    P (Execute.runCommand rules command d request s) := by
  cases hparams : Execute.checkParams d request.input s with
  | ok params => exact h.runCommand happroval hparams hd
  | error e =>
      rw [Execute.runCommand]
      simp only [hparams]
      exact hmisused e (Execute.ofFormula_eq_false_of_checkParams hparams)

/-! ## At the gates -/

theorem CommandDef.holdsTurn_eq_true_iff {d : CommandDef} {s : State} {actor : String} :
    d.holdsTurn s actor = true ↔ d.turn = none ∨ ∃ name, d.turn = some name
      ∧ (s.loops.get? name = none
        ∨ ∃ l, s.loops.get? name = some l ∧ (l.active = false ∨ l.currentActor? = some actor)) := by
  rw [holdsTurn]
  cases hturn : d.turn with
  | none => simp
  | some name =>
      cases hl : s.loops.get? name with
      | none => simp [hl]
      | some l => simp [hl]

namespace Rules

/-- A command of the manifest is run by the game master, and by whoever it is
not withheld from while it is their turn. -/
theorem admit_eq_ok_iff {rules : Rules} {command : String} {input : Input} {s : State}
    {d : CommandDef} :
    rules.admit command input s = .ok d ↔ rules.manifest.command? command = some d
      ∧ (input.isByGM = true
        ∨ command ∉ rules.manifest.gmCommands ∧ d.holdsTurn s input.actor = true) := by
  unfold Rules.admit
  cases hd : rules.manifest.command? command with
  | none => simp
  | some d' =>
      cases hgm : input.isByGM with
      | true => simp
      | false =>
          by_cases hfor : command ∈ rules.manifest.gmCommands
          · simp [Manifest.isForGM, hfor]
          · simp only [Manifest.isForGM, hfor, decide_false, Bool.false_eq_true, if_false]
            by_cases hturn : d'.holdsTurn s input.actor = true
            · simp only [hturn, if_true, Except.ok.injEq, Option.some.injEq]
              constructor
              · rintro rfl
                exact ⟨rfl, .inr ⟨not_false, hturn⟩⟩
              · exact fun h => h.1
            · simp only [hturn, if_false, reduceCtorEq, false_iff, Option.some.injEq]
              rintro ⟨rfl, h | h⟩
              · exact h
              · exact hturn h.2

theorem ofFormula_eq_false_of_denied {rules : Rules} {command : String} {input : Input} {s : State}
    {e : CommandError} (h : rules.admit command input s = .error e) : e.ofFormula = false := by
  unfold Rules.admit at h
  split at h
  · cases h
    rfl
  · split at h
    · cases h
    · split at h
      · cases h
        rfl
      · split at h
        · cases h
        · cases h
          rfl

/-- All gates up to the parameters are open to a request for a command of the
manifest. -/
structure Admits (rules : Rules) (request : Request) (s : State) (d : CommandDef) : Prop where
  unfrozen : (s.isFrozen && !request.input.isByGM) = false
  manifest : Builtin.named? (canonicalName request.input.command) = none
  admitted : rules.admit (canonicalName request.input.command) request.input s = .ok d

/-- How executing a request ends. -/
inductive ExecuteOutcome [Roller ρ] (rules : Rules) (request : Request) (s : State)
    (last : Option String) (ev : Evaluator ρ) :
    Except CommandError (List Event) × Evaluator ρ → Prop where
  | frozen : s.isFrozen = true → request.input.isByGM = false →
      ExecuteOutcome rules request s last ev (.error .ignored, ev)
  | builtin {b : Builtin} : (s.isFrozen && !request.input.isByGM) = false →
      Builtin.named? (canonicalName request.input.command) = some b →
      ExecuteOutcome rules request s last ev (b.run request.input s last rules.manifest ev)
  | denied {e : CommandError} :
      Builtin.named? (canonicalName request.input.command) = none →
      rules.admit (canonicalName request.input.command) request.input s = .error e →
      ExecuteOutcome rules request s last ev (.error e, ev)
  | misused {d : CommandDef} {e : CommandError} : rules.Admits request s d →
      Execute.checkParams d request.input s = .error e →
      ExecuteOutcome rules request s last ev (.error e, ev)
  | failed {d : CommandDef} {e : CommandError} {ev' : Evaluator ρ} : rules.Admits request s d →
      e.ofFormula = true →
      Execute.runCommand rules (canonicalName request.input.command) d request s ev
        = (.error (.refused e), ev') →
      ExecuteOutcome rules request s last ev (.error e, ev')
  | asked {d : CommandDef} {ev' : Evaluator ρ} : rules.Admits request s d →
      Execute.runCommand rules (canonicalName request.input.command) d request s ev
        = (.error .needsApproval, ev') →
      ExecuteOutcome rules request s last ev (.ok [Execute.approvalAsk request], ev')
  | done {d : CommandDef} {events : List Event} {ev' : Evaluator ρ} : rules.Admits request s d →
      Execute.runCommand rules (canonicalName request.input.command) d request s ev
        = (.ok events, ev') →
      ExecuteOutcome rules request s last ev (.ok events, ev')

variable [Roller ρ]

theorem execute_of_frozen {rules : Rules} {request : Request} {s : State}
    (hfrozen : s.isFrozen = true) (hplayer : request.input.isByGM = false) (last : Option String)
    (ev : Evaluator ρ) : rules.execute request s last ev = (.error .ignored, ev) := by
  simp only [execute, hfrozen, hplayer, Bool.not_false, Bool.and_self, if_true]

theorem execute_of_admits {rules : Rules} {request : Request} {s : State} {d : CommandDef}
    (h : rules.Admits request s d) (last : Option String) (ev : Evaluator ρ) :
    rules.execute request s last ev
      = match Execute.runCommand rules (canonicalName request.input.command) d request s ev with
        | (.ok events, ev) => (.ok events, ev)
        | (.error .needsApproval, ev) => (.ok [Execute.approvalAsk request], ev)
        | (.error (.refused e), ev) => (.error e, ev) := by
  rcases hrun : Execute.runCommand rules (canonicalName request.input.command) d request s ev with
    ⟨(e | _) | events, ev'⟩
  · simp only [execute, h.unfrozen, Bool.false_eq_true, if_false, h.manifest, h.admitted, hrun]
  · simp only [execute, h.unfrozen, Bool.false_eq_true, if_false, h.manifest, h.admitted, hrun]
  · simp only [execute, h.unfrozen, Bool.false_eq_true, if_false, h.manifest, h.admitted, hrun]

theorem execute_outcome (rules : Rules) (request : Request) (s : State) (last : Option String)
    (ev : Evaluator ρ) :
    rules.ExecuteOutcome request s last ev (rules.execute request s last ev) := by
  cases hfrozen : s.isFrozen && !request.input.isByGM with
  | true =>
      rw [Bool.and_eq_true, Bool.not_eq_true'] at hfrozen
      rw [execute_of_frozen hfrozen.1 hfrozen.2]
      exact .frozen hfrozen.1 hfrozen.2
  | false =>
      cases hb : Builtin.named? (canonicalName request.input.command) with
      | some b =>
          simp only [execute, hfrozen, Bool.false_eq_true, if_false, hb]
          exact .builtin hfrozen hb
      | none =>
          cases hd : rules.admit (canonicalName request.input.command) request.input s with
          | error e =>
              simp only [execute, hfrozen, Bool.false_eq_true, if_false, hb, hd]
              exact .denied hb hd
          | ok d =>
              have hadmits : rules.Admits request s d := ⟨hfrozen, hb, hd⟩
              rw [execute_of_admits hadmits]
              split
              · rename_i hrun
                exact .done hadmits hrun
              · rename_i hrun
                exact .asked hadmits hrun
              · rename_i hrun
                cases hparams : Execute.checkParams d request.input s with
                | error e' =>
                    rw [Execute.runCommand_of_misused hparams] at hrun
                    cases hrun
                    exact .misused hadmits hparams
                | ok params =>
                    -- To ask for an approval is not to refuse.
                    have hrefused : (Execute.runCommand rules
                        (canonicalName request.input.command) d request s :
                          Exec ρ _).RefusedByFormula :=
                      Exec.closed_refusedByFormula.runCommand ⟨fun h => by cases h⟩ hparams
                        fun _ _ => trivial
                    exact .failed hadmits (hrefused.ofFormula hrun) hrun

omit [Roller ρ] in
theorem Admits.of_player {rules : Rules} {request : Request} {s : State} {d : CommandDef}
    (h : rules.Admits request s d) (hplayer : request.input.isByGM = false) :
    s.isFrozen = false ∧ rules.manifest.command? (canonicalName request.input.command) = some d
      ∧ canonicalName request.input.command ∉ rules.manifest.gmCommands
      ∧ d.holdsTurn s request.input.actor = true := by
  have hunfrozen := h.unfrozen
  rw [hplayer, Bool.not_false, Bool.and_true] at hunfrozen
  obtain ⟨hd, hmaster | ⟨hfor, hturn⟩⟩ := admit_eq_ok_iff.mp h.admitted
  · exact absurd hmaster (by simp [hplayer])
  · exact ⟨hunfrozen, hd, hfor, hturn⟩

end Rules

/-- The built-in commands that are not the game master's answer to a question. -/
theorem Builtin.name_mem_of_run_eq_ok [Roller ρ] {b : Builtin} {input : Input} {s : State}
    {last : Option String} {manifest : Manifest} {ev ev' : Evaluator ρ} {events : List Event}
    (h : b.run input s last manifest ev = (.ok events, ev')) (hplayer : input.isByGM = false) :
    b.name ∈ ["roll", "help", "hint", "ask"] := by
  have hsettle : ∀ command approved, settle command input s approved
      = .error (.unauthorized command input.actor) := by
    intro command approved
    rw [settle, hplayer, if_neg Bool.false_ne_true]
  cases b with
  | allow => rw [run, hsettle] at h; cases h
  | deny => rw [run, hsettle] at h; cases h
  | adjudicate => rw [run, hsettle] at h; cases h
  | roll => decide
  | help => decide
  | hint => decide
  | ask => decide

/-- Built-in commands have no formulas. -/
theorem Builtin.ofFormula_eq_false_of_run [Roller ρ] {b : Builtin} {input : Input} {s : State}
    {last : Option String} {manifest : Manifest} {ev ev' : Evaluator ρ} {e : CommandError}
    (h : b.run input s last manifest ev = (.error e, ev')) : e.ofFormula = false := by
  have hsettle : ∀ {command approved},
      settle command input s approved = .error e → e.ofFormula = false := by
    intro command approved h
    rw [settle] at h
    split at h
    · cases h
    · cases h
      rfl
  cases b with
  | roll =>
      rw [run, rollDice] at h
      split at h
      · cases h
        rfl
      · split at h
        · cases h
        · cases h
          rfl
  | help | hint => cases h
  | ask =>
      have hask : askTargets input = .error e := congrArg Prod.fst h
      rw [askTargets] at hask
      split at hask
      · cases hask
        rfl
      · cases hask
  | allow | adjudicate | deny => exact hsettle (congrArg Prod.fst h)

namespace Rules

/-- What a player runs is a built-in command that is not the game master's, or
one of the manifest that is open to the player. -/
theorem open_of_execute_eq_ok [Roller ρ] {rules : Rules} {request : Request} {s : State}
    {last : Option String} {ev ev' : Evaluator ρ} {events : List Event}
    (hplayer : request.input.isByGM = false)
    (h : rules.execute request s last ev = (.ok events, ev')) :
    s.isFrozen = false ∧ (canonicalName request.input.command ∈ ["roll", "help", "hint", "ask"]
      ∨ ∃ d, rules.manifest.command? (canonicalName request.input.command) = some d
        ∧ canonicalName request.input.command ∉ rules.manifest.gmCommands
        ∧ d.holdsTurn s request.input.actor = true) := by
  have houtcome := rules.execute_outcome request s last ev
  rw [h] at houtcome
  generalize hresult : ((.ok events, ev') : Except CommandError (List Event) × _) = result
    at houtcome
  cases houtcome with
  | frozen | denied | misused | failed => cases hresult
  | asked hadmits | done hadmits =>
      obtain ⟨hfrozen, hopen⟩ := hadmits.of_player hplayer
      exact ⟨hfrozen, .inr ⟨_, hopen⟩⟩
  | builtin hopen hb =>
      rw [hplayer, Bool.not_false, Bool.and_true] at hopen
      have hmem := Builtin.name_mem_of_run_eq_ok hresult.symm hplayer
      rw [Builtin.name_of_named? hb] at hmem
      exact ⟨hopen, .inl hmem⟩

/-- What is refused at a gate leaves the evaluator as it was. -/
theorem eq_of_execute_eq_error [Roller ρ] {rules : Rules} {request : Request} {s : State}
    {last : Option String} {ev ev' : Evaluator ρ} {e : CommandError}
    (hb : Builtin.named? (canonicalName request.input.command) = none)
    (h : rules.execute request s last ev = (.error e, ev')) (hgate : e.ofFormula = false) :
    ev' = ev := by
  have houtcome := rules.execute_outcome request s last ev
  rw [h] at houtcome
  generalize hresult : ((.error e, ev') : Except CommandError (List Event) × _) = result
    at houtcome
  cases houtcome with
  | frozen | denied | misused =>
      cases hresult
      rfl
  | asked | done => cases hresult
  | builtin _ hb' => cases hb.symm.trans hb'
  | failed _ hformula =>
      cases hresult
      cases hgate.symm.trans hformula

/-- What is refused for a formula comes of running a command. -/
theorem runCommand_of_execute_eq_error [Roller ρ] {rules : Rules} {request : Request} {s : State}
    {last : Option String} {ev ev' : Evaluator ρ} {e : CommandError}
    (h : rules.execute request s last ev = (.error e, ev')) (hformula : e.ofFormula = true) :
    ∃ d, rules.Admits request s d
      ∧ Execute.runCommand rules (canonicalName request.input.command) d request s ev
        = (.error (.refused e), ev') := by
  have houtcome := rules.execute_outcome request s last ev
  rw [h] at houtcome
  generalize hresult : ((.error e, ev') : Except CommandError (List Event) × _) = result
    at houtcome
  cases houtcome with
  | frozen =>
      cases hresult
      cases hformula
  | builtin =>
      cases hformula.symm.trans (Builtin.ofFormula_eq_false_of_run hresult.symm)
  | denied _ hdenied =>
      cases hresult
      cases hformula.symm.trans (ofFormula_eq_false_of_denied hdenied)
  | misused _ hparams =>
      cases hresult
      cases hformula.symm.trans (Execute.ofFormula_eq_false_of_checkParams hparams)
  | failed hadmits _ hrun =>
      cases hresult
      exact ⟨_, hadmits, hrun⟩
  | asked | done => cases hresult

/-- A player's request succeeds only while the game is not frozen, and only if
it is for a built-in command that is not the game master's, or for one of the
manifest that is not withheld from players, at a turn of the player's. What is
refused for anything but a formula has not touched the dice. -/
theorem execute_authorized [Roller ρ] (rules : Rules) (request : Request) (s : State)
    (last : Option String) (ev : Evaluator ρ) :
    (request.input.isByGM = false →
      ∀ events ev', rules.execute request s last ev = (.ok events, ev') →
        s.isFrozen = false
          ∧ (canonicalName request.input.command ∈ ["roll", "help", "hint", "ask"]
            ∨ ∃ d, rules.manifest.command? (canonicalName request.input.command) = some d
              ∧ canonicalName request.input.command ∉ rules.manifest.gmCommands
              ∧ (d.turn = none ∨ ∃ name, d.turn = some name
                ∧ (s.loops.get? name = none ∨ ∃ l, s.loops.get? name = some l
                  ∧ (l.active = false ∨ l.currentActor? = some request.input.actor)))))
      ∧ (isBuiltin (canonicalName request.input.command) = false →
        ∀ e ev', rules.execute request s last ev = (.error e, ev') →
          e.code ∈ ["SilentIgnore", "UnauthorizedError", "UnknownCommandError", "ParamError"] →
          ev' = ev) := by
  constructor
  · intro hplayer events ev' h
    obtain ⟨hfrozen, hbuiltin | ⟨d, hd, hfor, hturn⟩⟩ := open_of_execute_eq_ok hplayer h
    · exact ⟨hfrozen, .inl hbuiltin⟩
    · exact ⟨hfrozen, .inr ⟨d, hd, hfor, CommandDef.holdsTurn_eq_true_iff.mp hturn⟩⟩
  · intro hbuiltin e ev' h hcode
    rw [isBuiltin, Option.isSome_eq_false_iff, Option.isNone_iff_eq_none] at hbuiltin
    exact eq_of_execute_eq_error hbuiltin h (CommandError.ofFormula_eq_false_of_code hcode)

/-- A command for whoever's turn it is in an encounter. -/
def attack : CommandDef :=
  { name := "attack", params := [], prereqs := [], targets := [], actor := [], hint := "",
    help := "", usage := "", turn := some "encounter",
    game := [⟨"hit", "roll('1d20') > 10 ? 'hit' : 'miss'", "HintEvent", none⟩] }

def skirmish : Rules :=
  ⟨⟨["encounter_end"], [], .ofList [("attack", attack)]⟩, .empty, false⟩

/-- An encounter in which it is the fighter's turn. -/
def fightersTurn : State :=
  { State.empty with loops := .ofList [("encounter", ⟨true, ["fighter"], ∅, false, 0⟩)] }

theorem admits_attack :
    skirmish.Admits (.ofInput ⟨"Attack", "fighter", [], ∅⟩) fightersTurn attack := by
  have hknown : skirmish.manifest.command? (canonicalName "Attack") = some attack := by
    decide +kernel
  have hloop : fightersTurn.loops.get? "encounter" = some ⟨true, ["fighter"], ∅, false, 0⟩ := by
    decide +kernel
  have hturn : attack.holdsTurn fightersTurn "fighter" = true := by
    refine CommandDef.holdsTurn_eq_true_iff.mpr (.inr ⟨"encounter", rfl, .inr ⟨_, hloop, .inr ?_⟩⟩)
    simp [Loop.currentActor?, Loop.orderedActors]
  refine ⟨by decide +kernel, by decide +kernel, admit_eq_ok_iff.mpr ⟨hknown, .inr ⟨?_, hturn⟩⟩⟩
  decide +kernel

/-- The fighter attacks in turn, which takes a roll. A command that there is
not takes none. -/
theorem execute_authorized_skirmish :
    let request (command : String) : Request := .ofInput ⟨command, "fighter", [], ∅⟩
    let dice : Evaluator DiceCup := .new (.scripted [15, 16]) 100
    (∃ ev, skirmish.execute (request "Attack") fightersTurn none dice = (.ok [.hinted "hit"], ev)
        ∧ ev.roller = .scripted [16] ∧ fightersTurn.isFrozen = false
        ∧ "attack" ∉ skirmish.manifest.gmCommands)
      ∧ ∃ ev, skirmish.execute (request "Dance") fightersTurn none dice
          = (.error (.unknownCommand "dance"), ev)
        ∧ ev = dice := by
  intro request dice
  constructor
  · have hname : canonicalName (request "Attack").input.command = "attack" := by decide +kernel
    have hresult : (skirmish.execute (request "Attack") fightersTurn none dice).1
        = .ok [.hinted "hit"] := by
      rw [execute_of_admits admits_attack]
      decide +kernel
    have hroller : (skirmish.execute (request "Attack") fightersTurn none dice).2.roller
        = .scripted [16] := by
      rw [execute_of_admits admits_attack]
      decide +kernel
    rcases hexecute : skirmish.execute (request "Attack") fightersTurn none dice with ⟨result, ev⟩
    rw [hexecute] at hresult hroller
    obtain rfl := hresult
    obtain ⟨hfrozen, hanybodys | ⟨d, -, hfor, -⟩⟩ :=
      (execute_authorized skirmish (request "Attack") fightersTurn none dice).1
        (by decide +kernel) _ _ hexecute
    · rw [hname] at hanybodys
      exact absurd hanybodys (by decide)
    · rw [hname] at hfor
      exact ⟨ev, rfl, hroller, hfrozen, hfor⟩
  · have hresult : (skirmish.execute (request "Dance") fightersTurn none dice).1
        = .error (.unknownCommand "dance") := by decide +kernel
    rcases hexecute : skirmish.execute (request "Dance") fightersTurn none dice with ⟨result, ev⟩
    rw [hexecute] at hresult
    obtain rfl := hresult
    exact ⟨ev, rfl, (execute_authorized skirmish (request "Dance") fightersTurn none dice).2
      (by decide +kernel) _ _ hexecute (by decide)⟩

end Rules
end GameTable
