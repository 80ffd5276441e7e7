import GameTable.Proofs.Formula.Evaluator

/-!
# An evaluator's memory

An evaluator remembers what it has compiled. Beside it stands one that remembers
nothing (`afresh`): it compiles a formula each time it is asked for it, and it
starts each evaluation on a machine that has made no rolls and no steps. Between
two uses it hands on its roller and nothing else.

Whatever an evaluator is used for, the two cannot be told apart: every answer is
the same, the rolls that an evaluation reports among it, and so is the roller in
the end (`answers_eq_afresh`). What carries the induction is that an evaluator
stays `Faithful`, as replacing its roller leaves the memory alone and a formula
that does not compile is not remembered.
-/

namespace GameTable

open Formula

variable {ρ : Type}

namespace Evaluator

/-- What an evaluator is asked to do. -/
inductive Use (ρ : Type) where
  | evaluate (source : String) (context : Dict Value)
  | compile (source : String)
  | run (program : Program) (context : Dict Value)
  | roll (dice : String)
  | setRoller (roller : ρ)

inductive Answer where
  | ran (run : Run)
  | compiled (program : Except FormulaError Program)
  | rolled (total : Except DiceError Int)
  | done

variable [Roller ρ]

def answer (ev : Evaluator ρ) : Use ρ → Answer × Evaluator ρ
  | .evaluate source context =>
    let (run, ev) := ev.evaluate source context
    (.ran run, ev)
  | .compile source =>
    let (program, ev) := ev.compile source
    (.compiled program, ev)
  | .run program context =>
    let (run, ev) := ev.run program context
    (.ran run, ev)
  | .roll dice =>
    let (total, ev) := ev.roll dice
    (.rolled total, ev)
  | .setRoller roller => (.done, ev.setRoller roller)

/-- The answers to a list of uses, and the evaluator after them. -/
def answers (ev : Evaluator ρ) : List (Use ρ) → List Answer × Evaluator ρ
  | [] => ([], ev)
  | u :: rest =>
    let (a, ev) := ev.answer u
    let (as, ev) := ev.answers rest
    (a :: as, ev)

/-! ## Without a memory -/

/-- Runs a program on a new machine, and hands on the roller. -/
def runAfresh (stepLimit : Nat) (roller : ρ) (program : Program) (context : Dict Value) :
    Run × ρ :=
  let (result, m) := (eval ⟨[], context, stepLimit⟩ program.expr : Eval ρ Value) ⟨roller, [], 0⟩
  (⟨result, m.rolls⟩, m.roller)

/-- The answer of an evaluator that compiles each source anew, and its roller
after it. -/
def afresh (stepLimit : Nat) (roller : ρ) : Use ρ → Answer × ρ
  | .evaluate source context =>
    match Program.compile source with
    | .error e => (.ran ⟨.error e, []⟩, roller)
    | .ok program =>
      let (run, roller) := runAfresh stepLimit roller program context
      (.ran run, roller)
  | .compile source => (.compiled (Program.compile source), roller)
  | .run program context =>
    let (run, roller) := runAfresh stepLimit roller program context
    (.ran run, roller)
  | .roll dice =>
    let (total, roller) := Roller.roll roller dice
    (.rolled total, roller)
  | .setRoller roller => (.done, roller)

def allAfresh (stepLimit : Nat) (roller : ρ) : List (Use ρ) → List Answer × ρ
  | [] => ([], roller)
  | u :: rest =>
    let (a, roller) := afresh stepLimit roller u
    let (as, roller) := allAfresh stepLimit roller rest
    (a :: as, roller)

/-! ## One use -/

theorem run_eq_runAfresh (ev : Evaluator ρ) (program : Program) (context : Dict Value) :
    ev.run program context
      = ((runAfresh ev.stepLimit ev.roller program context).1,
        { ev with roller := (runAfresh ev.stepLimit ev.roller program context).2 }) := rfl

/-- No use makes the memory wrong, or changes how far evaluations go. -/
theorem continues_answer (ev : Evaluator ρ) (u : Use ρ) : ev.Continues (ev.answer u).2 := by
  cases u with
  | evaluate source context => exact ev.continues_evaluate source context
  | compile source => exact ev.continues_compile source
  | run program context => exact continues_of_compiled rfl rfl
  | roll dice => exact continues_of_compiled rfl rfl
  | setRoller roller => exact continues_of_compiled rfl rfl

theorem Faithful.answer_eq_afresh {ev : Evaluator ρ} (hev : ev.Faithful) (u : Use ρ) :
    (ev.answer u).1 = (afresh ev.stepLimit ev.roller u).1
      ∧ (ev.answer u).2.roller = (afresh ev.stepLimit ev.roller u).2 := by
  cases u with
  | evaluate source context =>
      have hlimit := (continues_compile ev source).stepLimit
      have hroller := compile_roller ev source
      rw [answer, afresh]
      cases hcompile : Program.compile source with
      | error e =>
          rw [evaluate_of_error ((hev source).trans hcompile)]
          exact ⟨rfl, hroller⟩
      | ok program =>
          rw [evaluate_of_ok ((hev source).trans hcompile), run_eq_runAfresh, hlimit, hroller]
          exact ⟨rfl, rfl⟩
  | compile source => exact ⟨congrArg Answer.compiled (hev source), compile_roller ev source⟩
  | run program context => exact ⟨rfl, rfl⟩
  | roll dice => exact ⟨rfl, rfl⟩
  | setRoller roller => exact ⟨rfl, rfl⟩

/-! ## Any number of uses -/

theorem Faithful.answers_eq_allAfresh {ev : Evaluator ρ} (hev : ev.Faithful)
    (uses : List (Use ρ)) :
    (ev.answers uses).1 = (allAfresh ev.stepLimit ev.roller uses).1
      ∧ (ev.answers uses).2.roller = (allAfresh ev.stepLimit ev.roller uses).2 := by
  induction uses generalizing ev with
  | nil => exact ⟨rfl, rfl⟩
  | cons u rest ih =>
      have hcontinues := ev.continues_answer u
      obtain ⟨hanswer, hroller⟩ := hev.answer_eq_afresh u
      have hrest := ih (hev.of_continues hcontinues)
      rw [hcontinues.stepLimit, hroller] at hrest
      exact ⟨List.cons_eq_cons.mpr ⟨hanswer, hrest.1⟩, hrest.2⟩

/-- Whatever an evaluator is used for, in whatever order: the answers, with the
rolls that they report, and the roller in the end are those of an evaluator that
compiles each source anew each time. -/
theorem answers_eq_afresh (roller : ρ) (stepLimit : Nat) (uses : List (Use ρ)) :
    ((new roller stepLimit).answers uses).1 = (allAfresh stepLimit roller uses).1
      ∧ ((new roller stepLimit).answers uses).2.roller = (allAfresh stepLimit roller uses).2 :=
  (faithful_new roller stepLimit).answers_eq_allAfresh uses

end Evaluator

end GameTable
