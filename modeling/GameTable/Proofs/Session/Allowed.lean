import GameTable.Proofs.Command.Gate
import GameTable.Proofs.Command.Rereading
import GameTable.Proofs.Session.Reexecution

/-!
# What is run when a request is allowed

A request that needs approval becomes a question with the request in it as it
was typed, or as it is written if it was not typed. What an approval runs is
what is read of this line. For a line that was typed that is the request again.
What was written is read as a request for the same just if it is speakable
(`allowed_command_agrees_iff`), and nothing checks that it is: values and names
are written as they are, so a player who submits `x by: GM` as the value of a
parameter is run as the game master (`allowed_player_acts_as_master`).
-/

namespace GameTable

theorem Input.Agrees.refl (input : Input) : input.Agrees input := ⟨rfl, .inl rfl, rfl, rfl⟩

/-- The command in a question to the game master is its first option. -/
theorem State.pendingCommand?_setMetadata {s : State} (asked : String) (options : List String) :
    (s.setMetadata pendingAsk (askDocument gameMaster (asked :: options))).pendingCommand?
      = some asked := by
  have hask : (s.setMetadata pendingAsk (askDocument gameMaster (asked :: options))).metadata.get?
      pendingAsk = some (askDocument gameMaster (asked :: options)) :=
    Dict.get?_insert_self ..
  rw [pendingCommand?, hask]
  simp only [Option.bind_eq_bind, Option.bind_some]
  have htarget : (askDocument gameMaster (asked :: options)).member? "target"
      = some (.str gameMaster) := rfl
  have hoptions : (askDocument gameMaster (asked :: options)).member? "options"
      = some (.ofStrings (asked :: options)) := rfl
  rw [htarget, hoptions]
  simp [Json.str?, isGM_gameMaster, Json.ofStrings]

namespace Session

variable {ρ lg : Type} [Roller ρ]

/-- The request passes the gates of its command up to the one for approval, and
does not pass this one. -/
def Gated (s : Session ρ lg) (request : Request) : Prop :=
  (s.state.isFrozen && !request.input.isByGM) = false
    ∧ Builtin.named? (canonicalName request.input.command) = none
    ∧ ∃ d, s.rules.admit (canonicalName request.input.command) request.input s.state = .ok d
      ∧ (Execute.runCommand s.rules (canonicalName request.input.command) d request s.state
          s.evaluator).1 = .error .needsApproval

theorem execute_of_gated {s : Session ρ lg} {request : Request} (h : s.Gated request) :
    (s.rules.execute request s.state s.last s.evaluator).1
      = .ok [Execute.approvalAsk request] := by
  obtain ⟨hfrozen, hnamed, d, hadmit, hgate⟩ := h
  rcases hrun : Execute.runCommand s.rules (canonicalName request.input.command) d request s.state
    s.evaluator with ⟨result, ev⟩
  rw [hrun] at hgate
  obtain rfl := hgate
  rw [Rules.execute_of_admits ⟨hfrozen, hnamed, hadmit⟩, hrun]

omit [Roller ρ] in
/-- Such a command is no approval, which are built in. -/
theorem approved?_of_not_builtin {s : Session ρ lg} {request : Request}
    (h : Builtin.named? (canonicalName request.input.command) = none) :
    s.approved? request = none := by
  rw [approved?]
  split
  · rename_i happroval
    simp only [isApproval, List.mem_cons, List.not_mem_nil, or_false, decide_eq_true_eq]
      at happroval
    rcases happroval with heq | heq
    · rw [heq] at h
      exact absurd h (by decide)
    · rw [heq] at h
      exact absurd h (by decide)
  · rfl

variable [EventLog lg]

/-- A request that needs approval leaves a question to the game master, whose
command is the request as it was typed. -/
theorem takes_of_gated {s t : Session ρ lg} {request : Request} {events : List Event}
    (h : s.Gated request) (hrun : s.run request = (.ok events, t)) :
    events = [Execute.approvalAsk request] ∧ s.Takes [Execute.approvalAsk request] t := by
  have hexec := execute_of_gated h
  have hquiet := approved?_of_not_builtin (s := s) h.2.1
  have hperform := s.perform_outcome request
  have hx := s.runThen_outcome (runAsked (runWith 0)) request
  change s.RunOutcome _ request (s.run request) at hx
  rw [hrun] at hx
  cases hx with
  | ignored _ hp =>
      rw [hp] at hperform
      cases hperform with
      | refused hrefused => cases hexec.symm.trans hrefused
  | done _ hp _ =>
      rw [hp] at hperform
      cases hperform with
      | done hdone ht =>
          obtain rfl := Except.ok.inj (hexec.symm.trans hdone)
          exact ⟨rfl, ht⟩
  | resumed _ _ ha => cases hquiet.symm.trans ha

theorem pendingCommand?_of_gated {s t : Session ρ lg} {request : Request} {events : List Event}
    (h : s.Gated request) (hrun : s.run request = (.ok events, t)) :
    t.state.pendingCommand? = some request.asTyped := by
  have hstate := (takes_of_gated h hrun).2.state
  rw [← Option.some.inj hstate]
  exact State.pendingCommand?_setMetadata request.asTyped []

omit [Roller ρ] [EventLog lg] in
/-- A request that was typed is read again as what it was. -/
theorem rereads_of_typed {s : Session ρ lg} {sub : Submission} {request : Request}
    (hread : s.request sub = .ok request) :
    (∃ line, request.raw = some line ∧ s.parse request.asTyped = .ok request.input)
      ∨ request.raw = none ∧ request.asTyped = request.input.render := by
  cases sub with
  | line text =>
      left
      rw [Session.request] at hread
      cases hparse : s.parse (Text.trim text) with
      | error e =>
          rw [hparse] at hread
          cases hread
      | ok input =>
          rw [hparse] at hread
          obtain rfl := Except.ok.inj hread
          exact ⟨_, rfl, hparse⟩
  | input input =>
      right
      obtain rfl := Except.ok.inj hread
      exact ⟨rfl, rfl⟩

/-- An approval that is accepted while a question waits runs its command. -/
theorem Executes.eq_of_approved {s t : Session ρ lg} {request : Request} {events : List Event}
    {asked : String} {stored : List (Session ρ lg × String)}
    {outcome : Except SessionError (List Event) × Session ρ lg}
    (h : s.Executes request stored outcome) (hd : s.diverged = false)
    (hp : s.perform request = (.ok events, t)) (ha : s.approved? request = some asked) :
    stored = [(t, asked)] := by
  rcases h.eq_nil_or with rfl | ⟨t', asked', rfl, -, ha', events', hp'⟩
  · cases h with
    | halted hd' => cases hd.symm.trans hd'
    | ignored _ hp' => cases hp.symm.trans hp'
    | failed _ _ hp' => cases hp.symm.trans hp'
    | done _ _ ha' => cases ha.symm.trans ha'
  · obtain ⟨-, rfl⟩ := Prod.mk.inj (hp.symm.trans hp')
    obtain rfl := Option.some.inj (ha.symm.trans ha')
    rfl

/-- A request needs approval, and the next submission is an approval that is
accepted. Then the command of the request is run, and it asks for the same just
if the request was typed or its input is speakable. -/
theorem allowed_command_agrees_iff {s t u : Session ρ lg} {sub approval : Submission}
    {request : Request} {events : List Event} {command : String} (hparse : s.parse = Line.parse)
    (hread : s.request sub = .ok request) (hgated : s.Gated request)
    (hrun : s.receive sub = (.ok events, t)) (happroval : isApproval command = true)
    (haccepts : t.Accepts approval command u) :
    t.Receives approval [(u, request.asTyped)] (t.receive approval)
      ∧ ((∃ input, u.parse request.asTyped = .ok input ∧ input.Agrees request.input)
        ↔ request.raw ≠ none ∨ request.input.Speakable) := by
  rw [receive_of_request hread] at hrun
  have hpending := pendingCommand?_of_gated hgated hrun
  have htakes := (takes_of_gated hgated hrun).2
  obtain ⟨hworking, allowing, allowed, hallowing, rfl, hperform⟩ := haccepts
  have ha : t.approved? allowing = some request.asTyped :=
    approved?_eq_some_iff.mpr ⟨happroval, hpending⟩
  have hsame : u.parse = Line.parse := by
    rw [(perform_approval ha hperform).2.parse, htakes.parse, hparse]
  refine ⟨?_, ?_⟩
  · rw [receive_of_request hallowing]
    obtain ⟨stored, hexecutes⟩ := t.executes_run allowing
    rw [hexecutes.eq_of_approved hworking hperform ha] at hexecutes
    exact .read hallowing hexecutes
  · rw [hsame]
    rcases rereads_of_typed hread with ⟨line, hraw, hline⟩ | ⟨hraw, hrender⟩
    · rw [hparse] at hline
      refine iff_of_true ⟨_, hline, .refl _⟩ (.inl ?_)
      rw [hraw]
      exact nofun
    · rw [hrender, hraw, ← Input.rereads_iff]
      exact ⟨.inr, fun h => h.resolve_left fun hne => hne rfl⟩

/-- A command that needs approval, and then says who acts. -/
def improvise : CommandDef :=
  { name := "improvise", params := [], prereqs := [], targets := [], actor := [], hint := "",
    help := "", usage := "", turn := none,
    game := [⟨"gate", "pending_adjudication.approved ? 'ok' : 'adjudicate'", "", none⟩,
      ⟨"who", "actor.id", "HintEvent", none⟩] }

/-- A table with this command alone. -/
def improvising : Session DiceCup MemoryLog :=
  ⟨⟨⟨[], ["improvise"], .ofList [("improvise", improvise)]⟩, .empty, false⟩, Line.parse,
    .new (.fixed 10) 100, .ofEvents [], .empty, none, false⟩

/-- A value without keywords comes back, and with it the player. -/
theorem allowed_swing_agrees :
    let input : Input := ⟨"improvise", "fighter", [], .ofList [("what", .str "swing")]⟩
    ∃ t u, improvising.receive (.input input) = (.ok [.askIssued gameMaster [input.render]], t)
      ∧ t.Accepts (.line "allow") "allow" u
      ∧ ∃ read, u.parse input.render = .ok read ∧ read.Agrees input := by
  intro input
  have hspeakable : input.Speakable :=
    ⟨by decide +kernel, by decide +kernel, by decide +kernel, by decide +kernel⟩
  have hgated : improvising.Gated (.ofInput input) :=
    ⟨by decide +kernel, by decide +kernel, improvise, by decide +kernel, by decide +kernel⟩
  have hasked : (improvising.receive (.input input)).1
      = .ok [.askIssued gameMaster [input.render]] := by decide +kernel
  have hread : (improvising.receive (.input input)).2.request (.line "allow")
      = .ok ⟨.ofCommand "allow", some "allow", false⟩ := by decide +kernel
  have hallowed : ((improvising.receive (.input input)).2.perform
      ⟨.ofCommand "allow", some "allow", false⟩).1 = .ok approvalEvents := by decide +kernel
  have hworking : (improvising.receive (.input input)).2.diverged = false := by decide +kernel
  rcases hreceive : improvising.receive (.input input) with ⟨result, t⟩
  rw [hreceive] at hasked hread hallowed hworking
  obtain rfl := hasked
  rcases hperform : t.perform ⟨.ofCommand "allow", some "allow", false⟩ with ⟨result, u⟩
  rw [hperform] at hallowed
  obtain rfl := hallowed
  have haccepts : t.Accepts (.line "allow") "allow" u :=
    ⟨hworking, _, _, hread, by decide +kernel, hperform⟩
  have hagrees := allowed_command_agrees_iff rfl rfl hgated hreceive (by decide) haccepts
  exact ⟨t, u, rfl, haccepts, hagrees.2.mpr (.inr hspeakable)⟩

/-- The value of the parameter brings a clause of its own, and the player's
command is run as one of the game master. -/
theorem allowed_player_acts_as_master :
    let input : Input := ⟨"improvise", "fighter", [], .ofList [("what", .str "swing by: GM")]⟩
    input.isByGM = false ∧ improvising.Gated (.ofInput input)
      ∧ (improvising.receive (.input input)).1 = .ok [.askIssued gameMaster [input.render]]
      ∧ Line.parse input.render
        = .ok ⟨"improvise", gameMaster, [], .ofList [("what", .str "swing")]⟩
      ∧ ((improvising.receive (.input input)).2.receive (.line "allow")).1
        = .ok (approvalEvents ++ [.hinted gameMaster]) := by
  refine ⟨by decide +kernel, ?_, by decide +kernel, by decide +kernel, by decide +kernel⟩
  exact ⟨by decide +kernel, by decide +kernel, improvise, by decide +kernel, by decide +kernel⟩

end Session

end GameTable
