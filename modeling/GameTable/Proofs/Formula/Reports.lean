import GameTable.Proofs.Formula.Evaluator

/-!
# Every die is accounted for

The rolls that a run reports are the calls it made on the roller that were
answered with a total: all of them, in order, and no others, wherever the run
ends. A call that is refused ends the run, so it can only be the last one, and
but for it the roller is where the reported rolls lead
(`Called.exists_rolled`).

The rollers in use are not changed by refusing a roll (`DiceCup.roll_refused`).
For them the reported rolls alone say where the roller ends. The exception is a
sum beyond 64 bits, which is met after dice were drawn; but that is a fault and
no refusal, and nothing is evaluated after it.
-/

namespace GameTable

open Formula

/-! ## Refusals -/

theorem addFitting_eq_error {a b : Int} {err : DiceError} (h : addFitting a b = .error err) :
    err = .overflow := by
  rw [addFitting] at h
  split at h
  · cases h
  · exact (Except.error.inj h).symm

theorem throwTerms_eq_error {σ : Type} {draw : Nat → σ → Nat × σ} {terms : List SignedTerm}
    {sum : Int} {s : σ} {err : DiceError} (h : (throwTerms draw sum terms s).1 = .error err) :
    err = .overflow := by
  induction terms generalizing sum s with
  | nil => cases h
  | cons t rest ih =>
      rw [throwTerms] at h
      cases hsum : addFitting sum (t.signed (t.term.throw draw s).1) with
      | error err' =>
          obtain rfl := addFitting_eq_error hsum
          simp only [hsum] at h
          exact (Except.error.inj h).symm
      | ok sum =>
          simp only [hsum] at h
          exact ih h

/-- A roller in use that does not answer with a total is as it was, unless it
met a fault among dice that were drawn. -/
theorem DiceCup.roll_refused {cup cup' : DiceCup} {dice : String} {err : DiceError}
    (h : Roller.roll cup dice = (.error err, cup')) :
    cup' = cup ∨ err = .overflow ∧ ∃ stream, cup = .seeded stream := by
  change cup.roll dice = _ at h
  rw [DiceCup.roll] at h
  cases hparse : DiceExpr.parse dice with
  | error =>
      rw [hparse] at h
      exact .inl (congrArg Prod.snd h).symm
  | ok e =>
      rw [hparse] at h
      cases cup with
      | fixed total => exact .inl (congrArg Prod.snd h).symm
      | scripted results =>
          cases results with
          | nil => exact .inl (congrArg Prod.snd h).symm
          | cons total rest => cases h
      | seeded stream =>
          have hthrow : (e.throw Random.drawFace stream).1 = .error err := congrArg Prod.fst h
          exact .inr ⟨throwTerms_eq_error hthrow, stream, rfl⟩

namespace Formula

/-- The rolls among the calls of a run lead to where its roller ends, unless the
run ends with a call that is refused. -/
theorem Called.exists_rolled {ρ α : Type} [Roller ρ] {r r' : ρ} {calls : List Call}
    {result : Outcome α} (h : Called r calls r') (hend : Concludes calls result) :
    ∃ last, Rolled r (rollsOf calls) last
      ∧ (r' = last ∨ ∃ dice err, Roller.roll last dice = (.error err, r')
        ∧ result = .error (.dice err)) := by
  obtain hok | ⟨before, dice, err, rfl, hbefore, hresult⟩ := hend
  · exact ⟨r', h.rolled hok, .inl rfl⟩
  · obtain ⟨last, hcalled, hrefused⟩ := called_append.mp h
    have hrolls : rollsOf (before ++ [(dice, .error err)]) = rollsOf before :=
      (rollsOf_append ..).trans (List.append_nil _)
    rw [hrolls]
    exact ⟨last, hcalled.rolled hbefore, .inr ⟨dice, err, called_singleton.mp hrefused, hresult⟩⟩

end Formula

namespace Evaluator

/-- What a run reports are the rolls among the calls it makes on its roller: the
calls that a watched roller sees, on which the run comes to the same. They lead
to the roller that is left, whether the run has a value or fails, at its limit
of steps for example, and one that is refused is the last. A roller in use is
left alone by a call that it refuses, so it ends where the reported rolls lead. -/
theorem run_reports_every_roll :
    (∀ (ρ : Type) [Roller ρ] (ev : Evaluator ρ) (program : Program) (context : Dict Value),
        (ev.watched.run program context).1 = (ev.run program context).1
          ∧ (ev.run program context).1.rolls = rollsOf (ev.callsOf program context)
          ∧ Called ev.roller (ev.callsOf program context) (ev.run program context).2.roller
          ∧ Concludes (ev.callsOf program context) (ev.run program context).1.result)
      ∧ (∀ (cup : DiceCup) (dice : String),
        (Roller.roll cup dice).1.isOk ∨ (Roller.roll cup dice).2 = cup
          ∨ (Roller.roll cup dice).1 = .error .overflow ∧ ∃ stream, cup = .seeded stream)
      ∧ ∀ (ev : Evaluator DiceCup) (program : Program) (context : Dict Value),
        Rolled ev.roller (ev.run program context).1.rolls (ev.run program context).2.roller
          ∨ (ev.run program context).1.result = .error (.dice .overflow) := by
  refine ⟨fun ρ _ ev program context => ?_, fun cup dice => ?_, fun ev program context => ?_⟩
  · obtain ⟨hcalled, hrolls, hconcludes⟩ := ev.callsOf_spec program context
    exact ⟨(ev.watched_run program context).1, hrolls, hcalled, hconcludes⟩
  · rcases hroll : Roller.roll cup dice with ⟨err | total, cup'⟩
    · obtain rfl | ⟨rfl, hseeded⟩ := DiceCup.roll_refused hroll
      · exact .inr (.inl rfl)
      · exact .inr (.inr ⟨rfl, hseeded⟩)
    · exact .inl rfl
  · obtain ⟨hcalled, hrolls, hconcludes⟩ := ev.callsOf_spec program context
    rw [hrolls]
    obtain ⟨last, hrolled, hlast⟩ := hcalled.exists_rolled hconcludes
    obtain rfl | ⟨dice, err, hrefused, hresult⟩ := hlast
    · exact .inl hrolled
    · obtain hsame | ⟨rfl, -⟩ := DiceCup.roll_refused hrefused
      · rw [hsame]
        exact .inl hrolled
      · exact .inr hresult

/-- A script that runs out within a sum has handed out its total, and the report says so. -/
example : ((Evaluator.new (DiceCup.scripted [3]) 10).evaluate "roll('1d4') + roll('1d6')" ∅).1.rolls
    = [("1d4", 3)] := by decide +kernel

end Evaluator

end GameTable
