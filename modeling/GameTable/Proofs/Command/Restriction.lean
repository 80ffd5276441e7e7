import GameTable.Manifest.Lint
import GameTable.Proofs.Command.Gate
import GameTable.Proofs.Command.Rereading
import GameTable.Proofs.Dict.Lookup

/-!
# The restrictions of a manifest

A manifest may withhold commands from the players, and may leave commands to
the game master's approval. Both lists hold names, and a command is looked up
in them by its canonical name. So a name in canonical form restricts what it
names (`restrictions_enforced`), unless that is one of the built-in commands
that are anybody's: these are run before the lists are looked at. A name that
is spelled otherwise restricts nothing (`restrictions_evaded`), and the linter
reports it (`misspelled_restriction_reported`).
-/

namespace GameTable

open Execute

variable {ρ : Type} [Roller ρ]

/-! ## Steps that ask for approval -/

namespace Execute

variable {transcribe : Bool} {view : View} {o : Origin} {step : StepDef} {rest : List StepDef}
  {results results' : Dict Value} {ev ev' : Evaluator ρ}

theorem runSteps_cons_eq_ok_iff {events : List Event} :
    runSteps transcribe false view o (step :: rest) results ev = (.ok (results', events), ev')
      ↔ ∃ v first ev₁ more, runStep transcribe view o results step ev = (.ok (v, first), ev₁)
        ∧ runSteps transcribe false view o rest (results.insert step.name v) ev₁
          = (.ok (results', more), ev')
        ∧ events = first ++ more := by
  rw [runSteps, run_bind_eq_ok_iff]
  constructor
  · rintro ⟨⟨v, first⟩, ev₁, hstep, h⟩
    obtain ⟨⟨results'', more⟩, ev₂, hrest, h⟩ := run_bind_eq_ok_iff.mp h
    cases h
    exact ⟨v, first, ev₁, more, hstep, hrest, rfl⟩
  · rintro ⟨v, first, ev₁, more, hstep, hrest, rfl⟩
    exact ⟨(v, first), ev₁, hstep, run_bind_eq_ok_iff.mpr ⟨(results', more), ev', hrest, rfl⟩⟩

theorem runSteps_cons_of_asks {events : List Event}
    (hstep : runStep transcribe view o results step ev = (.ok (askForApproval, events), ev')) :
    runSteps transcribe true view o (step :: rest) results ev = (.error .needsApproval, ev') := by
  rw [runSteps, run_bind_of_ok hstep]
  rfl

/-- Where one step would ask for approval, gated steps stop, there or before. -/
theorem runSteps_stops {before after : List StepDef} {ev₁ ev₂ : Evaluator ρ}
    {events asking : List Event}
    (hbefore : runSteps transcribe false view o before results ev = (.ok (results', events), ev₁))
    (hstep : runStep transcribe view o results' step ev₁ = (.ok (askForApproval, asking), ev₂)) :
    ∃ ev', runSteps transcribe true view o (before ++ step :: after) results ev
      = (.error .needsApproval, ev') := by
  induction before generalizing results ev events with
  | nil =>
      cases hbefore
      exact ⟨ev₂, runSteps_cons_of_asks hstep⟩
  | cons first before ih =>
      obtain ⟨v, said, ev', more, hfirst, hrest, rfl⟩ := runSteps_cons_eq_ok_iff.mp hbefore
      by_cases hv : v = askForApproval
      · subst hv
        exact ⟨ev', runSteps_cons_of_asks hfirst⟩
      · obtain ⟨stopped, hstopped⟩ := ih hrest
        refine ⟨stopped, ?_⟩
        rw [List.cons_append, runSteps, run_bind_of_ok hfirst]
        simp only [Bool.true_and, hv, decide_false, Bool.false_eq_true, if_false]
        exact run_bind_of_error hstopped

end Execute

namespace Rules

/-- In running a request the prerequisites hold, and the steps of the game
phase get to one whose result is the given one. -/
inductive GameStepReturns (rules : Rules) (request : Request) (s : State) (ev : Evaluator ρ)
    (v : Value) : Prop where
  | intro {d : CommandDef} {params results : Dict Value} {view : View} {o : Origin}
    {before after : List StepDef} {step : StepDef} {events more : List Event}
    {ev₁ ev₂ ev₃ : Evaluator ρ}
    (admits : rules.Admits request s d)
    (checked : checkParams d request.input s = .ok params)
    (viewed : view = .of s rules.compendium rules.manifest params request.approved)
    (origin : o = ⟨request.input.actor, "", canonicalName request.input.command, none⟩)
    (game : d.game = before ++ step :: after)
    (prereqs : d.prereqs.forM (checkPrereq (view.context request.input.actor
      (d.resolveTargets request.input.targets params).head? ∅)) ev = (.ok (), ev₁))
    (earlier : runSteps rules.transcribe false view o before ∅ ev₁ = (.ok (results, events), ev₂))
    (returns : runStep rules.transcribe view o results step ev₂ = (.ok (v, more), ev₃)) :
    GameStepReturns rules request s ev v

/-- The first step of a command without prerequisites is always got to. -/
theorem GameStepReturns.of_first {rules : Rules} {request : Request} {s : State} {d : CommandDef}
    {params : Dict Value} {step : StepDef} {after : List StepDef} {ev : Evaluator ρ} {v : Value}
    (hadmits : rules.Admits request s d) (hchecked : checkParams d request.input s = .ok params)
    (hprereqs : d.prereqs = []) (hgame : d.game = step :: after)
    (hreturns : ∃ events, (runStep rules.transcribe
      (.of s rules.compendium rules.manifest params request.approved)
      ⟨request.input.actor, "", canonicalName request.input.command, none⟩ ∅ step ev).1
        = .ok (v, events)) :
    rules.GameStepReturns request s ev v := by
  rcases hstep : runStep rules.transcribe
    (.of s rules.compendium rules.manifest params request.approved)
    ⟨request.input.actor, "", canonicalName request.input.command, none⟩ ∅ step ev with ⟨result, ev'⟩
  rw [hstep] at hreturns
  obtain ⟨events, rfl⟩ := hreturns
  have hfirst : d.game = [] ++ step :: after := hgame
  refine .intro hadmits hchecked rfl rfl hfirst ?_ rfl hstep
  rw [hprereqs]
  rfl

theorem GameStepReturns.execute_eq {rules : Rules} {request : Request} {s : State}
    {ev : Evaluator ρ} (h : rules.GameStepReturns request s ev askForApproval)
    (happroved : request.approved = false)
    (hlisted : canonicalName request.input.command ∈ rules.manifest.adjudicated)
    (last : Option String) :
    ∃ ev', rules.execute request s last ev = (.ok [approvalAsk request], ev') := by
  obtain ⟨hadmits, hchecked, rfl, rfl, hgame, hprereqs, hearlier, hreturns⟩ := h
  obtain ⟨ev', hstops⟩ := runSteps_stops hearlier hreturns
  refine ⟨ev', ?_⟩
  rw [execute_of_admits hadmits, runCommand]
  simp only [hchecked]
  rw [run_bind_of_ok hprereqs, runPhases, hgame]
  simp only [happroved, Bool.not_false, Bool.true_and, Manifest.isAdjudicated, hlisted,
    decide_true]
  rw [happroved] at hstops
  rw [run_bind_of_error hstops]

/-! ## What the lists restrict -/

/-- A canonical name in the list of the game master's commands withholds its
command from the players, unless it is that of a built-in command of theirs. A
canonical name in the list of commands to be approved makes a question of every
request for its command, not yet approved, that gets to a step which asks. -/
theorem restrictions_enforced (rules : Rules) (request : Request) (s : State)
    (last : Option String) (ev : Evaluator ρ) :
    (∀ listed ∈ rules.manifest.gmCommands, canonicalName listed = listed →
      listed ∉ ["roll", "help", "hint", "ask"] → request.input.isByGM = false →
      canonicalName request.input.command = canonicalName listed →
      ∀ events ev', rules.execute request s last ev ≠ (.ok events, ev'))
    ∧ ∀ listed ∈ rules.manifest.adjudicated, canonicalName listed = listed →
      request.approved = false → canonicalName request.input.command = canonicalName listed →
      rules.GameStepReturns request s ev askForApproval →
      ∀ events ev', rules.execute request s last ev = (.ok events, ev') →
        events = [approvalAsk request] := by
  constructor
  · intro listed hlisted hcanonical hbuiltin hplayer hname events ev' h
    rw [hcanonical] at hname
    obtain ⟨-, hanybodys | ⟨d, -, hfor, -⟩⟩ := open_of_execute_eq_ok hplayer h
    · rw [hname] at hanybodys
      exact hbuiltin hanybodys
    · rw [hname] at hfor
      exact hfor hlisted
  · intro listed hlisted hcanonical happroved hname hreturns events ev' h
    rw [← hcanonical, ← hname] at hlisted
    obtain ⟨ev'', hasks⟩ := hreturns.execute_eq happroved hlisted last
    cases h.symm.trans hasks
    rfl

/-- A command that says something. -/
def saying (text : String) : CommandDef :=
  { name := "", params := [], prereqs := [], targets := [], actor := [], hint := "", help := "",
    usage := "", turn := none, game := [⟨"say", "'" ++ text ++ "'", "HintEvent", none⟩] }

/-- The players start no encounter, and improvising is put to the game master. -/
theorem restrictions_enforced_saying :
    let rules : Rules := ⟨Manifest.normalized ⟨["encounter_start"], ["improvise"],
      .ofList [("Encounter Start", saying "go"), ("improvise", saying "adjudicate")]⟩, .empty, false⟩
    let request (command : String) : Request := .ofInput ⟨command, "fighter", [], ∅⟩
    let dice : Evaluator DiceCup := .new (.fixed 10) 100
    (∀ events ev', rules.execute (request "encounter start") .empty none dice ≠ (.ok events, ev'))
      ∧ ∃ ev', rules.execute (request "improvise") .empty none dice
        = (.ok [approvalAsk (request "improvise")], ev') := by
  intro rules request dice
  constructor
  · exact (restrictions_enforced rules (request "encounter start") .empty none dice).1
      "encounter_start" (by decide) (by decide +kernel) (by decide) (by decide +kernel)
      (by decide +kernel)
  · have hadmits : rules.Admits (request "improvise") .empty
        { saying "adjudicate" with name := "improvise" } :=
      ⟨by decide +kernel, by decide +kernel, by decide +kernel⟩
    have hreturns : rules.GameStepReturns (request "improvise") .empty dice askForApproval :=
      .of_first hadmits rfl rfl rfl ⟨[.hinted "adjudicate"], by decide +kernel⟩
    have hok : (rules.execute (request "improvise") .empty none dice).1
        = .ok [approvalAsk (request "improvise")] := by decide +kernel
    rcases hexecute : rules.execute (request "improvise") .empty none dice with ⟨result, ev'⟩
    rw [hexecute] at hok
    obtain rfl := hok
    have hevents := (restrictions_enforced rules (request "improvise") .empty none dice).2
      "improvise" (by decide) (by decide +kernel) rfl rfl
      hreturns _ _ hexecute
    exact ⟨ev', by rw [hevents]⟩

/-- Neither the name of a built-in command nor one that is not canonical
restricts anything. -/
theorem restrictions_evaded :
    let rules : Rules := ⟨Manifest.normalized ⟨["roll", "Encounter Start"], ["Improvise"],
      .ofList [("Encounter Start", saying "go"), ("Improvise", saying "adjudicate")]⟩, .empty, false⟩
    let request (command : String) (params : Dict Value) : Request :=
      .ofInput ⟨command, "fighter", [], params⟩
    let dice : Evaluator DiceCup := .new (.fixed 10) 100
    ("roll" ∈ rules.manifest.gmCommands
        ∧ (rules.execute (request "roll" (.ofList [("dice", .str "1d20")])) .empty none dice).1
          = .ok [.diceRolled "fighter" "1d20" 10])
      ∧ ("Encounter Start" ∈ rules.manifest.gmCommands
        ∧ (rules.execute (request "Encounter Start" ∅) .empty none dice).1 = .ok [.hinted "go"])
      ∧ "Improvise" ∈ rules.manifest.adjudicated
        ∧ rules.GameStepReturns (request "Improvise" ∅) .empty dice askForApproval
        ∧ (rules.execute (request "Improvise" ∅) .empty none dice).1
          = .ok [.hinted "adjudicate"] := by
  intro rules request dice
  refine ⟨⟨by decide, by decide +kernel⟩, ⟨by decide, by decide +kernel⟩, by decide, ?_,
    by decide +kernel⟩
  have hadmits : rules.Admits (request "Improvise" ∅) .empty
      { saying "adjudicate" with name := "improvise" } :=
    ⟨by decide +kernel, by decide +kernel, by decide +kernel⟩
  exact .of_first hadmits rfl rfl rfl ⟨[.hinted "adjudicate"], by decide +kernel⟩

end Rules

/-! ## What the linter reports -/

theorem canonicalName_of_isBuiltin {name : String} (h : isBuiltin name = true) :
    canonicalName name = name := by
  obtain ⟨b, hb⟩ := Option.isSome_iff_exists.mp h
  rw [← Builtin.name_of_named? hb]
  cases b <;> decide +kernel

theorem Manifest.canonicalName_of_normalized_contains {m : Manifest} {name : String}
    (h : m.normalized.commands.contains name = true) : canonicalName name = name := by
  obtain ⟨d, hd⟩ := Option.isSome_iff_exists.mp h
  obtain ⟨⟨key, d'⟩, -, hentry⟩ := List.mem_map.mp (Dict.mem_of_get?_ofList hd)
  obtain rfl : canonicalName key = name := congrArg Prod.fst hentry
  exact canonicalName_canonicalName key

/-- No spelling that restricts nothing goes unreported. -/
theorem Manifest.misspelled_restriction_reported {m : Manifest} {listed : String}
    (hlisted : listed ∈ m.gmCommands ++ m.adjudicated) (hspelling : canonicalName listed ≠ listed) :
    .unknownRestricted listed ∈ m.normalized.lintRestrictions := by
  have hcommand : m.normalized.commands.contains listed = false :=
    Bool.eq_false_iff.mpr fun h => hspelling (canonicalName_of_normalized_contains h)
  have hbuiltin : isBuiltin listed = false :=
    Bool.eq_false_iff.mpr fun h => hspelling (canonicalName_of_isBuiltin h)
  rw [lintRestrictions, List.mem_map]
  refine ⟨listed, List.mem_filter.mpr ⟨hlisted, ?_⟩, rfl⟩
  rw [hcommand, hbuiltin]
  rfl

end GameTable
