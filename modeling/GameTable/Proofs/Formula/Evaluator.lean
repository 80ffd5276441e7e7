import GameTable.Proofs.Formula.Rolls

/-!
# Evaluators in use

While a session lasts one evaluator answers for all formulas. It remembers what
it has compiled and it hands its roller on, and nothing else about it ever
changes (`Evaluator.Continues`). What it remembers does not show: a formula is
compiled to the same program early and late (`continues_compile`), and an
evaluator that began with nothing compiles as if it remembered nothing
(`Evaluator.Faithful`).

The rolls are the other thing that an answer could depend on. Two machines whose
rollers are related answer alike if related rollers roll alike
(`insensitive_eval`), and a formula without dice is answered alike whatever the
rollers are.
-/

namespace GameTable

open Formula

variable {ρ : Type}

/-! ## What evaluation depends on -/

namespace Formula

/-- Machines that differ in their rollers alone, and these as allowed. -/
structure Machine.Agree (R : ρ → ρ → Prop) (m m' : Machine ρ) : Prop where
  rolls : m'.rolls = m.rolls
  steps : m'.steps = m.steps
  roller : R m.roller m'.roller

/-- Gives the same answer on machines that agree, and leaves machines that do. -/
structure Insensitive (R : ρ → ρ → Prop) {α : Type} (x : Eval ρ α) : Prop where
  answer : ∀ {m m'}, m.Agree R m' → (x m').1 = (x m).1
  agree : ∀ {m m'}, m.Agree R m' → (x m).2.Agree R (x m').2

/-- Related rollers have the same total for any dice, and are related again. -/
structure RollAlike [Roller ρ] (R : ρ → ρ → Prop) : Prop where
  total : ∀ {r r'}, R r r' → ∀ dice, (Roller.roll r' dice).1 = (Roller.roll r dice).1
  next : ∀ {r r'}, R r r' → ∀ dice, R (Roller.roll r dice).2 (Roller.roll r' dice).2

variable {R : ρ → ρ → Prop}

theorem insensitive_outcome {α : Type} (r : Outcome α) :
    Insensitive R (outcome r : Eval ρ α) where
  answer _ := rfl
  agree h := h

theorem insensitive_tick (limit : Nat) : Insensitive R (tick limit : Eval ρ Unit) where
  answer h := by rw [tick_apply, tick_apply, h.steps]
  agree h := by
    rw [tick_apply, tick_apply]
    exact ⟨h.rolls, congrArg (· + 1) h.steps, h.roller⟩

theorem Insensitive.bind {α β : Type} {x : Eval ρ α} {next : α → Eval ρ β} (hx : Insensitive R x)
    (hnext : ∀ a, Insensitive R (next a)) : Insensitive R (x >>= next) := by
  have hboth {m m' : Machine ρ} (h : m.Agree R m') :
      ((x >>= next) m').1 = ((x >>= next) m).1
        ∧ ((x >>= next) m).2.Agree R ((x >>= next) m').2 :=
    run_bind_both (Q := fun r r' => r'.1 = r.1 ∧ r.2.Agree R r'.2) (hx.answer h)
      (fun _ => ⟨rfl, hx.agree h⟩)
      fun a => ⟨(hnext a).answer (hx.agree h), (hnext a).agree (hx.agree h)⟩
  exact ⟨fun h => (hboth h).1, fun h => (hboth h).2⟩

theorem sequenced_insensitive (R : ρ → ρ → Prop) (limit : Nat) :
    Sequenced (σ := ρ) (fun {_} x _ => Insensitive R x) limit limit where
  late _ := insensitive_outcome _
  tick := insensitive_tick limit
  bind := Insensitive.bind

/-- Fails late if at all, on every machine. -/
structure LateOn {α : Type} (x : Eval ρ α) : Prop where
  late : ∀ m, Late (x m).1

theorem lateOn_outcome {α : Type} {r : Outcome α} (h : Late r) : LateOn (outcome r : Eval ρ α) :=
  ⟨fun _ => h⟩

theorem lateOn_tick (limit : Nat) : LateOn (tick limit : Eval ρ Unit) := by
  constructor
  intro m
  rw [tick_apply]
  split
  · exact late_error_iff.mpr rfl
  · exact late_ok ()

theorem LateOn.bind {α β : Type} {x : Eval ρ α} {next : α → Eval ρ β} (hx : LateOn x)
    (hnext : ∀ a, LateOn (next a)) : LateOn (x >>= next) := by
  constructor
  intro m
  have hlate := hx.late m
  rcases hm : x m with ⟨e | a, t⟩
  · rw [hm] at hlate
    rw [run_bind_of_error hm]
    exact late_error_iff.mpr (late_error_iff.mp hlate)
  · rw [run_bind_of_ok hm]
    exact (hnext a).late t

theorem sequenced_lateOn (limit : Nat) :
    Sequenced (ρ := ρ) (σ := ρ) (fun {_} x _ => LateOn x) limit limit where
  late := lateOn_outcome
  tick := lateOn_tick limit
  bind := LateOn.bind

variable [Roller ρ]

theorem insensitive_rollDice (hroll : RollAlike R) (dice : Value) :
    Insensitive R (rollDice dice : Eval ρ Value) := by
  cases dice with
  | str s =>
      have hboth : ∀ {m m' : Machine ρ}, m.Agree R m' →
          (rollDice (.str s) m').1 = (rollDice (.str s) m).1
            ∧ (rollDice (.str s) m).2.Agree R (rollDice (.str s) m').2 := by
        intro m m' h
        have htotal := hroll.total h.roller s
        have hnext := hroll.next h.roller s
        rcases hm : Roller.roll m.roller s with ⟨result, r⟩
        rcases hm' : Roller.roll m'.roller s with ⟨result', r'⟩
        rw [hm, hm'] at htotal hnext
        obtain rfl : result' = result := htotal
        cases result' with
        | error e =>
            simp only [rollDice, hm, hm']
            exact ⟨trivial, ⟨h.rolls, h.steps, hnext⟩⟩
        | ok total =>
            simp only [rollDice, hm, hm']
            exact ⟨trivial, ⟨congrArg (· ++ [(s, total)]) h.rolls, h.steps, hnext⟩⟩
      exact ⟨fun h => (hboth h).1, fun h => (hboth h).2⟩
  | _ => exact insensitive_outcome (typeError _)

/-- An expression with dice asks the rollers to roll alike, one without asks nothing. -/
theorem insensitive_eval (scope : Scope) (e : Expr) (hroll : e.rolls = true → RollAlike R) :
    Insensitive R (eval scope e : Eval ρ Value) :=
  (sequenced_insensitive R scope.limit).inStep e
    ⟨.inr insensitive_outcome, fun hrolls => insensitive_rollDice (hroll hrolls)⟩ (.refl _ scope)

theorem lateOn_rollDice (dice : Value) : LateOn (rollDice dice : Eval ρ Value) := by
  cases dice with
  | str s =>
      constructor
      intro m
      rcases hm : Roller.roll m.roller s with ⟨e | total, r⟩
      · simp only [rollDice, hm]
        exact late_error_iff.mpr rfl
      · simp only [rollDice, hm]
        exact late_ok _
  | _ => exact lateOn_outcome (late_typeError _)

/-- The evaluation of a checked expression fails late, if it fails. -/
theorem lateOn_eval (scope : Scope) {e : Expr} (hcheck : check e = .ok ()) :
    LateOn (eval scope e : Eval ρ Value) :=
  (sequenced_lateOn scope.limit).inStep e ⟨.inl hcheck, fun _ => lateOn_rollDice⟩ (.refl _ scope)

end Formula

theorem Program.check_of_compile {source : String} {program : Program}
    (h : Program.compile source = .ok program) : check program.expr = .ok () := by
  obtain ⟨tokens, -, h⟩ := bind_eq_ok_iff.mp h
  obtain ⟨expr, -, h⟩ := bind_eq_ok_iff.mp h
  obtain ⟨hcheck, h⟩ := andThen_eq_ok_iff.mp h
  obtain rfl := Except.ok.inj h
  exact hcheck

/-! ## Evaluators -/

namespace Evaluator

/-- An evaluator later on: what it compiles and how far it goes is as before. -/
structure Continues (ev ev' : Evaluator ρ) : Prop where
  stepLimit : ev'.stepLimit = ev.stepLimit
  compile : ∀ source, (ev'.compile source).1 = (ev.compile source).1

theorem Continues.refl (ev : Evaluator ρ) : ev.Continues ev := ⟨rfl, fun _ => rfl⟩

theorem Continues.trans {ev ev₁ ev' : Evaluator ρ} (h : ev.Continues ev₁)
    (h' : ev₁.Continues ev') : ev.Continues ev' :=
  ⟨h'.stepLimit.trans h.stepLimit, fun source => (h'.compile source).trans (h.compile source)⟩

/-- Compiles as if it remembered nothing. -/
def Faithful (ev : Evaluator ρ) : Prop :=
  ∀ source, (ev.compile source).1 = Program.compile source

theorem Faithful.of_continues {ev ev' : Evaluator ρ} (h : ev.Faithful) (h' : ev.Continues ev') :
    ev'.Faithful := fun source => (h'.compile source).trans (h source)

theorem compile_fst (ev : Evaluator ρ) (source : String) :
    (ev.compile source).1
      = match ev.compiled.get? source with
        | some program => .ok program
        | none => Program.compile source := by
  rw [compile]
  cases ev.compiled.get? source with
  | some program => rfl
  | none =>
      cases hcompile : Program.compile source with
      | error e => rfl
      | ok program => rfl

theorem faithful_new (roller : ρ) (stepLimit : Nat) : (new roller stepLimit).Faithful :=
  fun source => compile_fst (new roller stepLimit) source

theorem continues_of_compiled {ev ev' : Evaluator ρ} (hlimit : ev'.stepLimit = ev.stepLimit)
    (hcompiled : ev'.compiled = ev.compiled) : ev.Continues ev' := by
  refine ⟨hlimit, fun source => ?_⟩
  rw [compile_fst, compile_fst, hcompiled]

/-- What is compiled once is compiled to the same again. -/
theorem continues_compile (ev : Evaluator ρ) (source : String) :
    ev.Continues (ev.compile source).2 := by
  rw [compile]
  split
  · exact .refl ev
  · rename_i hunknown
    split
    · rename_i program hcompile
      refine ⟨rfl, fun other => ?_⟩
      by_cases hother : source = other
      · subst hother
        rw [compile_fst, compile_fst, Dict.get?_insert_self, hunknown, hcompile]
      · rw [compile_fst, compile_fst, Dict.get?_insert_of_ne _ _ hother]
    · exact .refl ev

theorem compile_roller (ev : Evaluator ρ) (source : String) :
    (ev.compile source).2.roller = ev.roller := by
  rw [compile]
  split
  · rfl
  · split <;> rfl

variable [Roller ρ]

theorem run_of_eval {ev : Evaluator ρ} {program : Program} {context : Dict Value}
    {result : Outcome Value} {m : Machine ρ}
    (h : eval ⟨[], context, ev.stepLimit⟩ program.expr ⟨ev.roller, [], 0⟩ = (result, m)) :
    ev.run program context = (⟨result, m.rolls⟩, { ev with roller := m.roller }) := by
  rw [run, h]

theorem evaluate_of_error {ev : Evaluator ρ} {source : String} {e : FormulaError}
    (h : (ev.compile source).1 = .error e) (context : Dict Value) :
    ev.evaluate source context = (⟨.error e, []⟩, (ev.compile source).2) := by
  rcases hcompile : ev.compile source with ⟨result, ev'⟩
  rw [hcompile] at h
  obtain rfl : result = .error e := h
  simp only [evaluate, hcompile]

theorem evaluate_of_ok {ev : Evaluator ρ} {source : String} {program : Program}
    (h : (ev.compile source).1 = .ok program) (context : Dict Value) :
    ev.evaluate source context = (ev.compile source).2.run program context := by
  rcases hcompile : ev.compile source with ⟨result, ev'⟩
  rw [hcompile] at h
  obtain rfl : result = .ok program := h
  simp only [evaluate, hcompile]

theorem evaluate_of_eval {ev : Evaluator ρ} (hev : ev.Faithful) {source : String}
    {program : Program} (hcompile : Program.compile source = .ok program)
    {context : Dict Value} {result : Outcome Value} {m : Machine ρ}
    (h : eval ⟨[], context, ev.stepLimit⟩ program.expr ⟨ev.roller, [], 0⟩ = (result, m)) :
    (ev.evaluate source context).1 = ⟨result, m.rolls⟩ := by
  rw [← (ev.continues_compile source).stepLimit, ← ev.compile_roller source] at h
  rw [evaluate_of_ok ((hev source).trans hcompile), run_of_eval h]

/-! ## Watching the roller -/

/-- The evaluator with its roller watched from now on. -/
def watched (ev : Evaluator ρ) : Evaluator (Watched ρ) :=
  ⟨⟨ev.roller, []⟩, ev.stepLimit, ev.compiled⟩

/-- The calls that running a program makes on the roller. -/
def callsOf (ev : Evaluator ρ) (program : Program) (context : Dict Value) : List Call :=
  (ev.watched.run program context).2.roller.calls

/-- It does not show in a run that its roller is watched. -/
theorem watched_run (ev : Evaluator ρ) (program : Program) (context : Dict Value) :
    (ev.watched.run program context).1 = (ev.run program context).1
      ∧ (ev.watched.run program context).2.roller.roller = (ev.run program context).2.roller := by
  have hsame := (noted_eval ⟨[], context, ev.stepLimit⟩ program.expr).same ⟨⟨ev.roller, []⟩, [], 0⟩
  rw [run_of_eval hsame]
  exact ⟨rfl, rfl⟩

/-- The calls take the roller to where the run leaves it, the rolls among them
are reported, and one that is refused ends the run. -/
theorem callsOf_spec (ev : Evaluator ρ) (program : Program) (context : Dict Value) :
    Called ev.roller (ev.callsOf program context) (ev.run program context).2.roller
      ∧ (ev.run program context).1.rolls = rollsOf (ev.callsOf program context)
      ∧ Concludes (ev.callsOf program context) (ev.run program context).1.result := by
  obtain ⟨calls, hcalls, hrolls, hcalled, hconcludes⟩ :=
    (noted_eval ⟨[], context, ev.stepLimit⟩ program.expr).calls ⟨⟨ev.roller, []⟩, [], 0⟩
  obtain rfl : ev.callsOf program context = calls := hcalls
  obtain ⟨hrun, hroller⟩ := ev.watched_run program context
  rw [← hrun, ← hroller]
  exact ⟨hcalled, hrolls, hconcludes⟩

/-- A formula that has a value has made just the rolls that are reported, and
the roller ends where they lead. -/
theorem rolled_of_evaluate {ev ev' : Evaluator ρ} {source : String} {context : Dict Value}
    {v : Value} {rolls : List RollRecord}
    (h : ev.evaluate source context = (⟨.ok v, rolls⟩, ev')) :
    Rolled ev.roller rolls ev'.roller := by
  cases hcompile : (ev.compile source).1 with
  | error e =>
      rw [evaluate_of_error hcompile] at h
      cases h
  | ok program =>
      rw [evaluate_of_ok hcompile] at h
      obtain ⟨hcalled, hrolls, hconcludes⟩ := (ev.compile source).2.callsOf_spec program context
      rw [h] at hcalled hrolls hconcludes
      have hok : ∀ call ∈ (ev.compile source).2.callsOf program context, call.2.isOk :=
        hconcludes.resolve_right fun ⟨_, _, _, _, _, herr⟩ => by cases herr
      obtain rfl : rolls = _ := hrolls
      rw [← compile_roller ev source]
      exact hcalled.rolled hok

/-! ## Later uses -/

theorem continues_evaluate (ev : Evaluator ρ) (source : String) (context : Dict Value) :
    ev.Continues (ev.evaluate source context).2 := by
  have hcompile := ev.continues_compile source
  cases h : (ev.compile source).1 with
  | error e =>
      rw [evaluate_of_error h]
      exact hcompile
  | ok program =>
      rw [evaluate_of_ok h]
      exact hcompile.trans (continues_of_compiled rfl rfl)

/-- An evaluator with a related roller has the same answer later on. -/
theorem evaluate_of_continues {R : ρ → ρ → Prop} {ev ev' : Evaluator ρ} (h : ev.Continues ev')
    (hroller : R ev.roller ev'.roller) {source : String}
    (hroll : ∀ program, (ev.compile source).1 = .ok program → program.expr.rolls = true →
      RollAlike R) (context : Dict Value) :
    (ev'.evaluate source context).1 = (ev.evaluate source context).1
      ∧ R (ev.evaluate source context).2.roller (ev'.evaluate source context).2.roller := by
  cases hcompile : (ev.compile source).1 with
  | error e =>
      rw [evaluate_of_error hcompile, evaluate_of_error ((h.compile source).trans hcompile),
        compile_roller, compile_roller]
      exact ⟨rfl, hroller⟩
  | ok program =>
      rw [evaluate_of_ok hcompile, evaluate_of_ok ((h.compile source).trans hcompile)]
      have hagree : Machine.Agree R ⟨(ev.compile source).2.roller, [], 0⟩
          ⟨(ev'.compile source).2.roller, [], 0⟩ := by
        rw [compile_roller, compile_roller]
        exact ⟨rfl, rfl, hroller⟩
      have hlimit : (ev'.compile source).2.stepLimit = (ev.compile source).2.stepLimit := by
        rw [(continues_compile ev' source).stepLimit, (continues_compile ev source).stepLimit,
          h.stepLimit]
      have heval := insensitive_eval (R := R) ⟨[], context, (ev.compile source).2.stepLimit⟩
        program.expr (hroll program hcompile)
      have hanswer := heval.answer hagree
      have hafter := heval.agree hagree
      rcases hfirst : eval ⟨[], context, (ev.compile source).2.stepLimit⟩ program.expr
        ⟨(ev.compile source).2.roller, [], 0⟩ with ⟨result, m⟩
      rcases hlater : eval ⟨[], context, (ev.compile source).2.stepLimit⟩ program.expr
        ⟨(ev'.compile source).2.roller, [], 0⟩ with ⟨result', m'⟩
      rw [hfirst, hlater] at hanswer hafter
      obtain rfl : result' = result := hanswer
      rw [← hlimit] at hlater
      rw [run_of_eval hfirst, run_of_eval hlater, hafter.rolls]
      exact ⟨rfl, hafter.roller⟩

/-- A formula without dice has the same answer on every roller. -/
theorem evaluate_of_not_rolls {ev ev' : Evaluator ρ} (h : ev.Continues ev') {source : String}
    (hrolls : ∀ program, (ev.compile source).1 = .ok program → program.expr.rolls = false)
    (context : Dict Value) :
    (ev'.evaluate source context).1 = (ev.evaluate source context).1 :=
  (evaluate_of_continues (R := fun _ _ => True) h trivial (fun program hcompile hdice => by
    rw [hrolls program hcompile] at hdice
    cases hdice) context).1

theorem late_run {source : String} {program : Program}
    (h : Program.compile source = .ok program) (ev : Evaluator ρ) (context : Dict Value) :
    Late (ev.run program context).1.result :=
  (lateOn_eval _ (Program.check_of_compile h)).late _

/-- A formula that compiles fails late, if it fails. -/
theorem late_evaluate {ev : Evaluator ρ} (hev : ev.Faithful) {source : String} {program : Program}
    (h : Program.compile source = .ok program) (context : Dict Value) :
    Late (ev.evaluate source context).1.result := by
  rw [evaluate_of_ok ((hev source).trans h)]
  exact late_run h ..

end Evaluator

end GameTable
