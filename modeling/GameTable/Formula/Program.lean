import GameTable.Formula.Parser
import GameTable.Formula.Check
import GameTable.Formula.Eval

/-!
# Compiled formulas

`Program.compile` reads a formula and checks it; a compiled formula can be run any number of
times. An `Evaluator` owns the roller and the step limit of a session and remembers what it has
compiled, so that a formula is read only once. What it remembers never shows in an answer.
-/

namespace GameTable

open GameTable.Formula

/-- A formula that has been read and checked, with its text. -/
structure Program where
  source : String
  expr : Expr

def Program.compile (source : String) : Except FormulaError Program := do
  let tokens ← tokenize source
  let expr ← parse tokens
  check expr
  return ⟨source, expr⟩

/-- The result of running a formula, and the rolls it made. -/
structure Run where
  result : Except FormulaError Value
  rolls : List RollRecord

/-- The most expressions an evaluation visits unless told otherwise. -/
def defaultStepLimit : Nat := 10000

/-- A roller, a step limit, and the formulas compiled so far by their texts. -/
structure Evaluator (ρ : Type) where
  roller : ρ
  stepLimit : Nat
  compiled : Dict Program

namespace Evaluator

variable {ρ : Type}

def new (roller : ρ) (stepLimit : Nat) : Evaluator ρ := ⟨roller, stepLimit, ∅⟩

def setRoller (ev : Evaluator ρ) (roller : ρ) : Evaluator ρ := { ev with roller }

/-- Compiles a formula, or finds it among those compiled before. Failures are not remembered. -/
def compile (ev : Evaluator ρ) (source : String) : Except FormulaError Program × Evaluator ρ :=
  match ev.compiled.get? source with
  | some program => (.ok program, ev)
  | none =>
    match Program.compile source with
    | .ok program => (.ok program, { ev with compiled := ev.compiled.insert source program })
    | .error e => (.error e, ev)

variable [Roller ρ]

/-- Rolls dice outside a formula. -/
def roll (ev : Evaluator ρ) (dice : String) : Except DiceError Int × Evaluator ρ :=
  let (r, roller) := Roller.roll ev.roller dice
  (r, { ev with roller })

/-- Runs a compiled formula in a context. -/
def run (ev : Evaluator ρ) (program : Program) (context : Dict Value) : Run × Evaluator ρ :=
  let (result, m) := (eval ⟨[], context, ev.stepLimit⟩ program.expr : Eval ρ Value) ⟨ev.roller, [], 0⟩
  (⟨result, m.rolls⟩, { ev with roller := m.roller })

/-- Compiles and runs a formula. A formula that does not compile makes no rolls. -/
def evaluate (ev : Evaluator ρ) (source : String) (context : Dict Value) : Run × Evaluator ρ :=
  match ev.compile source with
  | (.error e, ev) => (⟨.error e, []⟩, ev)
  | (.ok program, ev) => ev.run program context

end Evaluator

end GameTable
