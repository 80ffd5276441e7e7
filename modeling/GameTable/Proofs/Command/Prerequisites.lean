import GameTable.Proofs.Command.Gate
import GameTable.Proofs.Formula.Reads

/-!
# Prerequisites and targets

The prerequisites of a command are evaluated once, before its phases, and on
the first of its targets; the target phase runs for all of them. A prerequisite
that does not read the target holds for the others too. One that does is not
asked about them, and so a command may be run on whoever stands behind a first
target for which it is allowed (`Rules.first_target_vouches`).
-/

namespace GameTable

open Execute

/-- Whether running a formula makes no rolls, whatever it is given. -/
def Program.RollFree (source : String) : Prop :=
  ∀ program, Program.compile source = .ok program → program.expr.rolls = false

/-- Whether a formula reads the target. -/
def Program.ReadsTarget (source : String) : Prop :=
  ∃ program, Program.compile source = .ok program ∧ program.expr.reads "target" = true

variable {ρ : Type} [Roller ρ]

/-- Whether a prerequisite holds of a target, before there are results of steps. -/
def PrereqDef.HoldsOf (p : PrereqDef) (view : View) (actor target : String)
    (ev : Evaluator ρ) : Prop :=
  (ev.evaluate p.formula (view.context actor (some target) ∅)).1.result = .ok (.bool true)

instance (p : PrereqDef) (view : View) (actor target : String) (ev : Evaluator ρ) :
    Decidable (p.HoldsOf view actor target ev) :=
  inferInstanceAs (Decidable (_ = _))

namespace Execute

variable {context : Dict Value} {p : PrereqDef} {prereqs : List PrereqDef} {ev ev' : Evaluator ρ}

theorem checkPrereq_of_true {rolls : List Formula.RollRecord}
    (h : ev.evaluate p.formula context = (⟨.ok (.bool true), rolls⟩, ev')) :
    checkPrereq context p ev = (.ok (), ev') := by
  rw [checkPrereq, run_bind_of_ok (evaluate_of_ok h p.name)]
  rfl

/-- A prerequisite that is not true is a reason to refuse. -/
theorem checkPrereq_of_ne_true {run : Run} (h : ev.evaluate p.formula context = (run, ev'))
    (hrun : run.result ≠ .ok (.bool true)) :
    ∃ e, checkPrereq context p ev = (.error (.refused e), ev') := by
  obtain ⟨e | v, rolls⟩ := run
  · rw [checkPrereq, run_bind_of_error (evaluate_of_error h p.name)]
    exact ⟨_, rfl⟩
  · rw [checkPrereq, run_bind_of_ok (evaluate_of_ok h p.name)]
    dsimp only
    split
    · exact absurd rfl hrun
    · exact ⟨_, rfl⟩
    · exact ⟨_, rfl⟩

theorem checkPrereq_cases (context : Dict Value) (p : PrereqDef) (ev : Evaluator ρ) :
    (∃ ev', checkPrereq context p ev = (.ok (), ev')
        ∧ (ev.evaluate p.formula context).1.result = .ok (.bool true))
      ∨ ∃ e ev', checkPrereq context p ev = (.error (.refused e), ev') := by
  rcases h : ev.evaluate p.formula context with ⟨run, ev'⟩
  by_cases hrun : run.result = .ok (.bool true)
  · obtain ⟨result, rolls⟩ := run
    obtain rfl : result = .ok (.bool true) := hrun
    exact .inl ⟨ev', checkPrereq_of_true h, rfl⟩
  · obtain ⟨e, he⟩ := checkPrereq_of_ne_true h hrun
    exact .inr ⟨e, ev', he⟩

/-- Prerequisites that are passed are true, each when its turn comes. -/
theorem exists_of_checkPrereqs_eq_ok
    (h : prereqs.forM (checkPrereq context) ev = (.ok (), ev')) :
    ∀ p ∈ prereqs, ∃ later, ev.Continues later
      ∧ (later.evaluate p.formula context).1.result = .ok (.bool true) := by
  induction prereqs generalizing ev with
  | nil => simp
  | cons p rest ih =>
      have hcontinues := (Exec.closed_continues.checkPrereq context trivial).continues
        (x := checkPrereq context p) ev
      rcases checkPrereq_cases context p ev with ⟨ev₁, hp, htrue⟩ | ⟨e, ev₁, hp⟩
      · rw [hp] at hcontinues
        refine List.forall_mem_cons.mpr ⟨⟨ev, .refl ev, htrue⟩, fun q hq => ?_⟩
        obtain ⟨later, hlater, hq⟩ := ih ((run_bind_of_ok hp).symm.trans h) q hq
        exact ⟨later, hcontinues.trans hlater, hq⟩
      · cases (run_bind_of_error hp).symm.trans h

/-- A command that is not refused has its parameters in order, has passed its prerequisites, and
comes from its phases. -/
theorem exists_of_runCommand {rules : Rules} {command : String} {d : CommandDef}
    {request : Request} {s : State} {result : Except Stop (List Event)}
    (h : runCommand rules command d request s ev = (result, ev'))
    (hresult : ∀ e, result ≠ .error (.refused e)) :
    ∃ params view targets ev₁, checkParams d request.input s = .ok params
      ∧ view = View.of s rules.compendium rules.manifest params request.approved
      ∧ targets = d.resolveTargets request.input.targets params
      ∧ d.prereqs.forM (checkPrereq (view.context request.input.actor targets.head? ∅)) ev
        = (.ok (), ev₁)
      ∧ runPhases rules.transcribe (!request.approved && rules.manifest.isAdjudicated command)
        view ⟨request.input.actor, "", command, none⟩ d targets ev₁ = (result, ev') := by
  cases hparams : checkParams d request.input s with
  | error e =>
      cases (runCommand_of_misused hparams ev).symm.trans h
      exact absurd rfl (hresult e)
  | ok params =>
      rw [runCommand] at h
      simp only [hparams] at h
      rcases hprereqs : d.prereqs.forM (checkPrereq
        ((View.of s rules.compendium rules.manifest params request.approved).context
          request.input.actor (d.resolveTargets request.input.targets params).head? ∅)) ev with
        ⟨stop | ⟨⟩, ev₁⟩
      · obtain ⟨e, rfl⟩ :=
          (Exec.closed_refuses.checkPrereqs _ fun _ _ => trivial).exists_refused hprereqs
        cases (run_bind_of_error hprereqs).symm.trans h
        exact absurd rfl (hresult e)
      · exact ⟨params, _, _, ev₁, rfl, rfl, rfl, hprereqs,
          (run_bind_of_ok hprereqs).symm.trans h⟩

end Execute

/-! ## One target and another -/

/-- Contexts for different targets differ in the target alone. -/
theorem View.get?_context_of_ne {view : View} {actor : String} {target target' : Option String}
    {results : Dict Value} {name : String} (hname : name ≠ "target") :
    (view.context actor target' results).get? name
      = (view.context actor target results).get? name := by
  simp only [View.context, Dict.get?_insert, if_neg hname.symm]

/-- A formula that does not read the target has the same answer for every target. -/
theorem Evaluator.evaluate_of_not_readsTarget {ev : Evaluator ρ} (hev : ev.Faithful)
    {source : String} (h : ¬ Program.ReadsTarget source) (view : View) (actor : String)
    (target target' : Option String) (results : Dict Value) :
    ev.evaluate source (view.context actor target' results)
      = ev.evaluate source (view.context actor target results) := by
  apply evaluate_congr
  intro program hcompile name hname
  apply View.get?_context_of_ne
  rintro rfl
  exact h ⟨program, (hev source).symm.trans hcompile, hname⟩

namespace Rules

variable {rules : Rules} {request : Request} {s : State} {last : Option String}

/-- A command that succeeds has been admitted and run, and was not refused. -/
theorem exists_of_execute_eq_ok {ev ev' : Evaluator ρ} {events : List Event}
    (hmanifest : isBuiltin (canonicalName request.input.command) = false)
    (h : rules.execute request s last ev = (.ok events, ev')) :
    ∃ d result, rules.Admits request s d
      ∧ runCommand rules (canonicalName request.input.command) d request s ev = (result, ev')
      ∧ (result = .ok events
        ∨ result = .error .needsApproval ∧ events = [approvalAsk request]) := by
  have houtcome := rules.execute_outcome request s last ev
  rw [h] at houtcome
  generalize hresult : ((.ok events, ev') : Except CommandError (List Event) × _) = result
    at houtcome
  cases houtcome with
  | frozen | denied | misused | failed => cases hresult
  | builtin _ hb => simp [isBuiltin, hb] at hmanifest
  | asked hadmits hrun =>
      cases hresult
      exact ⟨_, _, hadmits, hrun, .inr ⟨rfl, rfl⟩⟩
  | done hadmits hrun =>
      cases hresult
      exact ⟨_, _, hadmits, hrun, .inl rfl⟩

theorem ne_refused {result : Except Stop (List Event)} {events : List Event}
    (h : result = .ok events ∨ result = .error .needsApproval ∧ events = [approvalAsk request]) :
    ∀ e, result ≠ .error (.refused e) := by
  rintro e rfl
  rcases h with h | ⟨h, -⟩ <;> cases h

/-- Prerequisites without rolls are asked of the first target. When a command succeeds they hold of
that one, and those that do not read the target hold of the others. So they hold of all targets just
if those that read the target hold of the targets behind the first too. -/
theorem first_target_vouches {ev ev' : Evaluator ρ} (hev : ev.Faithful) {d : CommandDef}
    (hd : rules.manifest.command? (canonicalName request.input.command) = some d)
    (hmanifest : isBuiltin (canonicalName request.input.command) = false)
    (hrolls : ∀ p ∈ d.prereqs, Program.RollFree p.formula) {events : List Event}
    (h : rules.execute request s last ev = (.ok events, ev')) :
    ∃ params view targets, checkParams d request.input s = .ok params
      ∧ view = View.of s rules.compendium rules.manifest params request.approved
      ∧ targets = d.resolveTargets request.input.targets params
      ∧ (∀ target ∈ targets, ∀ p ∈ d.prereqs,
        targets.head? = some target ∨ ¬ Program.ReadsTarget p.formula →
          p.HoldsOf view request.input.actor target ev)
      ∧ ((∀ target ∈ targets, ∀ p ∈ d.prereqs, p.HoldsOf view request.input.actor target ev)
        ↔ ∀ target ∈ targets.tail, ∀ p ∈ d.prereqs, Program.ReadsTarget p.formula →
          p.HoldsOf view request.input.actor target ev) := by
  obtain ⟨d', result, hadmits, hrun, hresult⟩ := exists_of_execute_eq_ok hmanifest h
  obtain rfl : d' = d := Option.some.inj ((admit_eq_ok_iff.mp hadmits.admitted).1.symm.trans hd)
  obtain ⟨params, view, targets, ev₁, hparams, hview, htargets, hprereqs, -⟩ :=
    exists_of_runCommand hrun (ne_refused hresult)
  -- The first target has been asked about, by an evaluator that may have gone on meanwhile.
  have hfirst : ∀ p ∈ d'.prereqs, (ev.evaluate p.formula
      (view.context request.input.actor targets.head? ∅)).1.result = .ok (.bool true) := by
    intro p hp
    obtain ⟨later, hlater, htrue⟩ := exists_of_checkPrereqs_eq_ok hprereqs p hp
    rw [Evaluator.evaluate_of_not_rolls hlater
      fun program h => hrolls p hp program ((hev p.formula).symm.trans h)] at htrue
    exact htrue
  have hcovered : ∀ target ∈ targets, ∀ p ∈ d'.prereqs,
      targets.head? = some target ∨ ¬ Program.ReadsTarget p.formula →
        p.HoldsOf view request.input.actor target ev := by
    intro target _ p hp hcase
    rw [PrereqDef.HoldsOf]
    rcases hcase with hhead | hreads
    · rw [← hhead]
      exact hfirst p hp
    · rw [Evaluator.evaluate_of_not_readsTarget hev hreads view request.input.actor targets.head?]
      exact hfirst p hp
  refine ⟨params, view, targets, hparams, hview, htargets, hcovered, ?_, ?_⟩
  · intro hall target htarget p hp _
    exact hall target (List.mem_of_mem_tail htarget) p hp
  · intro htail target htarget p hp
    by_cases hreads : Program.ReadsTarget p.formula
    · rcases targets with _ | ⟨first, rest⟩
      · cases htarget
      · rcases List.mem_cons.mp htarget with rfl | hrest
        · exact hcovered target htarget p hp (.inl rfl)
        · exact htail target hrest p hp hreads
    · exact hcovered target htarget p hp (.inr hreads)

/-- A creature to be grappled is at most one size larger. -/
def sizeRule : PrereqDef :=
  ⟨"size", "size_rank(target.size) <= size_rank(actor.size) + 1",
    "That creature is too large to grapple."⟩

def grapple : CommandDef :=
  { name := "grapple", params := [], prereqs := [sizeRule], game := [], actor := [], hint := "",
    help := "", usage := "", turn := none,
    targets := [⟨"grappled", "'grappled'", "AddConditionEvent", none⟩] }

def brawl : Rules := ⟨⟨[], [], .ofList [("grapple", grapple)]⟩, .empty, false⟩

def creature (id size : String) : String × Entity :=
  (id, { Entity.blank id "" with classes := .ofList [("size", size)] })

def melee : State :=
  { State.empty with entities := .ofList [creature "fighter" "medium", creature "goblin" "small",
      creature "orc" "medium", creature "giant" "huge"] }

def grappling (targets : List String) : Request := .ofInput ⟨"grapple", "fighter", targets, ∅⟩

theorem rollFree_sizeRule : Program.RollFree sizeRule.formula := by
  intro program h
  have hrolls : (Program.compile sizeRule.formula).toOption.map (·.expr.rolls) = some false := by
    decide +kernel
  rw [h] at hrolls
  exact Option.some.inj hrolls

def calmDice : Evaluator DiceCup := .new (.fixed 10) 100

def meleeView : View := .of melee brawl.compendium brawl.manifest ∅ false

/-- The fighter grapples a goblin and an orc, who are both small enough. -/
theorem first_target_vouches_orc :
    (∃ events ev, brawl.execute (grappling ["goblin", "orc"]) melee none calmDice
        = (.ok events, ev))
      ∧ ∀ target ∈ ["goblin", "orc"], ∀ p ∈ grapple.prereqs,
        p.HoldsOf meleeView "fighter" target calmDice := by
  have hok : (brawl.execute (grappling ["goblin", "orc"]) melee none calmDice).1.isOk = true := by
    decide +kernel
  rcases h : brawl.execute (grappling ["goblin", "orc"]) melee none calmDice with
    ⟨e | events, ev⟩
  · rw [h] at hok
    cases hok
  have hrolls : ∀ p ∈ grapple.prereqs, Program.RollFree p.formula := by
    intro p hp
    obtain rfl := List.mem_singleton.mp hp
    exact rollFree_sizeRule
  obtain ⟨params, view, targets, hparams, hview, htargets, -, hiff⟩ :=
    first_target_vouches (Evaluator.faithful_new _ _) (by decide +kernel) (by decide +kernel)
      hrolls h
  have hchecked : checkParams grapple (grappling ["goblin", "orc"]).input melee = .ok ∅ := by
    decide +kernel
  obtain rfl := Except.ok.inj (hchecked.symm.trans hparams)
  obtain rfl : targets = ["goblin", "orc"] := htargets.trans (by decide +kernel)
  obtain rfl : view = meleeView := hview
  have horc : sizeRule.HoldsOf meleeView "fighter" "orc" calmDice := by decide +kernel
  refine ⟨⟨events, ev, rfl⟩, hiff.mpr ?_⟩
  intro target htarget p hp _
  obtain rfl := List.mem_singleton.mp htarget
  obtain rfl := List.mem_singleton.mp hp
  exact horc

/-- Behind a goblin the fighter grapples a giant, who is too large. In front of the goblin the
giant is refused. -/
theorem goblin_vouches_for_giant :
    ∃ ev, brawl.execute (grappling ["goblin", "giant"]) melee none calmDice
        = (.ok [.conditionChanged "goblin" "grappled" true,
            .conditionChanged "giant" "grappled" true], ev)
      ∧ sizeRule ∈ grapple.prereqs ∧ Program.RollFree sizeRule.formula
      ∧ ¬ sizeRule.HoldsOf meleeView "fighter" "giant" calmDice
      ∧ (brawl.execute (grappling ["giant", "goblin"]) melee none calmDice).1
        = .error (.prereq "size" "That creature is too large to grapple.") := by
  have hresult : (brawl.execute (grappling ["goblin", "giant"]) melee none calmDice).1
      = .ok [.conditionChanged "goblin" "grappled" true,
          .conditionChanged "giant" "grappled" true] := by
    decide +kernel
  rcases h : brawl.execute (grappling ["goblin", "giant"]) melee none calmDice with ⟨result, ev⟩
  rw [h] at hresult
  obtain rfl := hresult
  exact ⟨ev, rfl, List.mem_singleton.mpr rfl, rollFree_sizeRule, by decide +kernel,
    by decide +kernel⟩

end Rules

end GameTable
