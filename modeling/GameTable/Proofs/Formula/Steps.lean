import GameTable.Proofs.Formula.Rolls

/-!
# Evaluating step by step

The evaluation of an expression from those of its parts, for each kind of
expression on its own. An expression is visited first, which takes a step, and
its parts go on from there. They may fail, and then their failure is that of the
whole.
-/

namespace GameTable.Formula

variable {ρ : Type} [Roller ρ] {scope : Scope} {m t u : Machine ρ} {v : Value}

/-- The visit of an expression that is one too many ends the evaluation. -/
theorem eval_of_le (h : scope.limit ≤ m.steps) (e : Expr) :
    eval scope e m = (.error (.stepLimit scope.limit), { m with steps := m.steps + 1 }) := by
  rw [eval.eq_def, run_bind_of_error (tick_of_le h)]

theorem lt_limit_of_eval_eq_ok {e : Expr} (h : eval scope e m = (.ok v, t)) :
    m.steps < scope.limit := by
  rcases Nat.lt_or_ge m.steps scope.limit with hlt | hge
  · exact hlt
  · rw [eval_of_le hge] at h
    cases h

theorem eval_literal (hlimit : m.steps < scope.limit) (v : Value) :
    eval scope (.literal v) m = (.ok v, { m with steps := m.steps + 1 }) := by
  rw [eval.eq_def, run_bind_of_ok (tick_of_lt hlimit)]
  rfl

theorem lookup_of_get? {context : Dict Value} {name : String} (h : context.get? name = some v)
    {limit : Nat} : Scope.lookup ⟨[], context, limit⟩ name = .ok v := by
  rw [Scope.lookup, h]
  rfl

theorem eval_ident (hlimit : m.steps < scope.limit) {name : String}
    (hv : scope.lookup name = .ok v) :
    eval scope (.ident name) m = (.ok v, { m with steps := m.steps + 1 }) := by
  rw [eval.eq_def, run_bind_of_ok (tick_of_lt hlimit)]
  dsimp only
  rw [hv]
  rfl

theorem eval_member (hlimit : m.steps < scope.limit) {target : Expr} {field : String} {w : Value}
    (htarget : eval scope target { m with steps := m.steps + 1 } = (.ok w, t))
    (hv : selectField field w = .ok v) : eval scope (.member target field) m = (.ok v, t) := by
  rw [eval.eq_def, run_bind_of_ok (tick_of_lt hlimit)]
  dsimp only
  rw [run_bind_of_ok htarget, hv]
  rfl

omit [Roller ρ] in
/-- A result that is put to use without the machine. -/
theorem run_bind_outcome {α β : Type} {x : Eval ρ α} {r : Outcome α} (h : x m = (r, t))
    (next : α → Outcome β) : (x >>= fun a => outcome (next a)) m = (r >>= next, t) := by
  cases r with
  | error err => rw [run_bind_of_error h, error_bind]
  | ok a => rw [run_bind_of_ok h, ok_bind]; rfl

theorem eval_unary (hlimit : m.steps < scope.limit) (op : UnaryOp) {operand : Expr}
    {r : Outcome Value} (h : eval scope operand { m with steps := m.steps + 1 } = (r, t)) :
    eval scope (.unary op operand) m = (r >>= applyUnary op, t) := by
  rw [eval.eq_def, run_bind_of_ok (tick_of_lt hlimit)]
  exact run_bind_outcome h _

theorem eval_binary_of_error (hlimit : m.steps < scope.limit) (op : BinaryOp) {lhs rhs : Expr}
    {err : FormulaError}
    (h : eval scope lhs { m with steps := m.steps + 1 } = (.error err, t)) :
    eval scope (.binary op lhs rhs) m = (.error err, t) := by
  rw [eval.eq_def, run_bind_of_ok (tick_of_lt hlimit)]
  cases op <;> exact run_bind_of_error h

/-- The operators other than `&&` and `||` evaluate both operands. -/
theorem eval_binary_of_ok (hlimit : m.steps < scope.limit) {op : BinaryOp} (hand : op ≠ .and)
    (hor : op ≠ .or) {lhs rhs : Expr} {a : Value} {r : Outcome Value}
    (hlhs : eval scope lhs { m with steps := m.steps + 1 } = (.ok a, t))
    (hrhs : eval scope rhs t = (r, u)) :
    eval scope (.binary op lhs rhs) m = (r >>= applyBinary op a, u) := by
  rw [eval.eq_def, run_bind_of_ok (tick_of_lt hlimit)]
  cases op with
  | and => exact absurd rfl hand
  | or => exact absurd rfl hor
  | _ => exact (run_bind_of_ok hlhs).trans (run_bind_outcome hrhs _)

/-- A function of one argument that depends on nothing else. -/
theorem eval_call (hlimit : m.steps < scope.limit) {name : String} {f : Function}
    (hname : Function.named? name = some f) (hroll : f ≠ .roll) (hhas : f ≠ .has) {arg : Expr}
    {r : Outcome Value} (h : eval scope arg { m with steps := m.steps + 1 } = (r, t)) :
    eval scope (.call name [arg]) m = (r >>= fun v => callFunction name [v], t) := by
  have hargs : evalAll scope [arg] { m with steps := m.steps + 1 }
      = (r >>= fun v => .ok [v], t) := by
    rw [evalAll]
    exact run_bind_outcome h fun v => .ok [v]
  rw [eval.eq_def, run_bind_of_ok (tick_of_lt hlimit)]
  dsimp only
  rw [hname]
  cases f with
  | roll => exact absurd rfl hroll
  | has => exact absurd rfl hhas
  | _ =>
      refine (run_bind_outcome hargs _).trans ?_
      cases r <;> rfl

/-- A method of one argument. -/
theorem eval_method (hlimit : m.steps < scope.limit) {target arg : Expr} {name : String}
    {v : Value} {r : Outcome Value}
    (htarget : eval scope target { m with steps := m.steps + 1 } = (.ok v, t))
    (harg : eval scope arg t = (r, u)) :
    eval scope (.method target name [arg]) m = (r >>= fun w => callMethod name v [w], u) := by
  have hargs : evalAll scope [arg] t = (r >>= fun w => .ok [w], u) := by
    rw [evalAll]
    exact run_bind_outcome harg fun w => .ok [w]
  rw [eval.eq_def, run_bind_of_ok (tick_of_lt hlimit)]
  refine (run_bind_of_ok htarget).trans ((run_bind_outcome hargs _).trans ?_)
  cases r <;> rfl

/-- A comprehension runs over its target from where that left the machine. -/
theorem eval_comprehension {target : Expr}
    (htarget : eval scope target { m with steps := m.steps + 1 } = (.ok v, t))
    (kind : Comprehension) (var : String) (body : Expr) :
    eval scope (.comprehension target kind var body) m
      = (outcome (iterated v) >>= fun items =>
          runComprehension kind (fun item => eval (scope.bind var item) body) [] items) t := by
  have hlimit : m.steps + 1 < scope.limit := lt_limit_of_eval_eq_ok htarget
  rw [eval.eq_def, run_bind_of_ok (tick_of_lt (by omega))]
  exact run_bind_of_ok htarget

end GameTable.Formula
