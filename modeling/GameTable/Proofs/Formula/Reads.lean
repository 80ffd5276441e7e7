import Mathlib.Control.Monad.Basic
import GameTable.Proofs.Formula.Evaluator

/-!
# What a formula reads

A formula reads the names that occur in it, other than the variables that its
comprehensions bind. It cannot tell two contexts apart that agree on these
(`Evaluator.evaluate_congr`): not by its result, nor by the rolls it makes, nor
by the number of steps it takes.

`Expr.reads` computes what is read. It is the names that stand free
(`Expr.free_iff_reads`): those that have an occurrence with no comprehension of
that variable around it.
-/

namespace GameTable

open Formula

variable {ρ : Type} [Roller ρ]

namespace Formula

namespace Expr

/-- A name stands free in an expression where it is to be looked up and no
comprehension around it has it as its variable. The variable of a comprehension
is bound in its body, but not in its target. -/
inductive Free (name : String) : Expr → Prop
  | ident : Free name (.ident name)
  | part {e part : Expr} : (∀ target kind var body, e ≠ .comprehension target kind var body) →
      part ∈ e.parts → Free name part → Free name e
  | target {target body : Expr} {kind : Comprehension} {var : String} :
      Free name target → Free name (.comprehension target kind var body)
  | body {target body : Expr} {kind : Comprehension} {var : String} :
      var ≠ name → Free name body → Free name (.comprehension target kind var body)

theorem readsItems_eq_true_iff {name : String} {es : List Expr} :
    readsItems name es = true ↔ ∃ e ∈ es, e.reads name = true := by
  induction es with
  | nil => simp [readsItems]
  | cons e rest ih => simp [readsItems, ih]

theorem readsEntries_eq_true_iff {name : String} {entries : List (Expr × Expr)} :
    readsEntries name entries = true
      ↔ ∃ entry ∈ entries, entry.1.reads name = true ∨ entry.2.reads name = true := by
  induction entries with
  | nil => simp [readsEntries]
  | cons entry rest ih => simp [readsEntries, ih]

/-- Where nothing is bound, an expression reads the name that it is, or what its parts read. -/
theorem reads_iff {name : String} {e : Expr}
    (h : ∀ target kind var body, e ≠ .comprehension target kind var body) :
    e.reads name = true ↔ e = .ident name ∨ ∃ part ∈ e.parts, part.reads name = true := by
  cases e with
  | comprehension target kind var body => exact absurd rfl (h target kind var body)
  | map entries =>
      simp only [parts, reads, readsEntries_eq_true_iff, List.mem_flatMap, List.mem_cons,
        List.not_mem_nil, or_false, reduceCtorEq, false_or]
      grind
  | _ => simp [parts, reads, readsItems_eq_true_iff, or_assoc]

theorem free_of_reads {name : String} (e : Expr) (h : e.reads name = true) : e.Free name := by
  induction e using induction_on_parts with
  | h e ih =>
      by_cases hbinds : ∃ target kind var body, e = .comprehension target kind var body
      · obtain ⟨target, kind, var, body, rfl⟩ := hbinds
        simp only [reads, Bool.or_eq_true, Bool.and_eq_true, decide_eq_true_eq] at h
        rcases h with h | ⟨hvar, h⟩
        · exact .target (ih _ (.head _) h)
        · exact .body hvar (ih _ (.tail _ (.head _)) h)
      · simp only [not_exists] at hbinds
        rcases (reads_iff hbinds).mp h with rfl | ⟨part, hpart, hreads⟩
        · exact .ident
        · exact .part hbinds hpart (ih part hpart hreads)

theorem free_iff_reads {name : String} {e : Expr} : e.Free name ↔ e.reads name = true := by
  refine ⟨fun h => ?_, free_of_reads e⟩
  induction h with
  | ident => simp [reads]
  | part hbinds hpart _ ih => exact (reads_iff hbinds).mpr (.inr ⟨_, hpart, ih⟩)
  | target _ ih => simp [reads, ih]
  | body hvar _ ih => simp [reads, hvar, ih]

end Expr

/-- Contexts that agree on some names are alike to whoever asks for no others. -/
theorem Scope.Alike.of_agree {names : String → Bool} {context context' : Dict Value}
    (h : ∀ name, names name = true → context'.get? name = context.get? name) (limit : Nat) :
    Scope.Alike limit limit names ⟨[], context, limit⟩ ⟨[], context', limit⟩ := by
  refine ⟨rfl, rfl, fun name hname => ?_⟩
  simp only [Scope.lookup, h name hname]

theorem closed_eq (limit : Nat) :
    Closed (ρ := ρ) (σ := ρ) (fun {_} x y => y = x) limit limit where
  outcome _ := rfl
  tick := rfl
  rollDice _ := rfl
  bind h hnext := by
    rw [h]
    exact bind_congr hnext

/-- Scopes that agree on what an expression reads are alike to it. -/
theorem eval_congr (e : Expr) {limit : Nat} {scope scope' : Scope}
    (h : Scope.Alike limit limit (fun name => e.reads name) scope scope') :
    (eval scope' e : Eval ρ Value) = eval scope e :=
  (closed_eq limit).inStep e h

end Formula

namespace Evaluator

/-- Contexts that agree on what a formula reads are alike to it. -/
theorem evaluate_congr {ev : Evaluator ρ} {source : String} {context context' : Dict Value}
    (h : ∀ program, (ev.compile source).1 = .ok program →
      ∀ name, program.expr.reads name = true → context'.get? name = context.get? name) :
    ev.evaluate source context' = ev.evaluate source context := by
  cases hcompile : (ev.compile source).1 with
  | error e => rw [evaluate_of_error hcompile, evaluate_of_error hcompile]
  | ok program =>
      have halike := Scope.Alike.of_agree (h program hcompile)
      rw [evaluate_of_ok hcompile, evaluate_of_ok hcompile, run, run, eval_congr _ (halike _)]

/-- Running a formula depends on the names that stand free in it and on no
others. In contexts that give these the same values, or none, a run has the same
value or error and the same rolls, and leaves the same roller and the evaluator
as it was. So an entry under another name may be added, changed or removed. -/
theorem run_depends_on_free_names (ev : Evaluator ρ) (program : Program) (context : Dict Value) :
    (∀ context' : Dict Value,
        (∀ name, program.expr.Free name → context'.get? name = context.get? name) →
        ev.run program context' = ev.run program context)
      ∧ ∀ name, ¬ program.expr.Free name →
        (∀ v, ev.run program (context.insert name v) = ev.run program context)
          ∧ ev.run program (context.erase name) = ev.run program context := by
  have hagree (context' : Dict Value)
      (h : ∀ name, program.expr.Free name → context'.get? name = context.get? name) :
      ev.run program context' = ev.run program context := by
    have halike : ∀ limit, Scope.Alike limit limit (fun name => program.expr.reads name)
        ⟨[], context, limit⟩ ⟨[], context', limit⟩ :=
      Scope.Alike.of_agree fun name hname => h name (Expr.free_iff_reads.mpr hname)
    rw [run, run, eval_congr _ (halike _)]
  refine ⟨hagree, fun name hname => ⟨fun v => hagree _ ?_, hagree _ ?_⟩⟩
  · intro other hother
    exact Dict.get?_insert_of_ne _ _ fun heq => hname (heq ▸ hother)
  · intro other hother
    exact Dict.get?_erase_of_ne _ fun heq => hname (heq ▸ hother)

/-- The variable of a filter stands for the conditions one by one, whatever the
context has under its name. -/
theorem run_depends_on_free_names_immunity :
    let program : Program := ⟨"conditions.filter(c, c != immune).size() + roll('1d6')",
      .binary .add
        (.method (.comprehension (.ident "conditions") .filter "c"
          (.binary .ne (.ident "c") (.ident "immune"))) "size" [])
        (.call "roll" [.literal (.str "1d6")])⟩
    let ev : Evaluator DiceCup := .new (.scripted [4]) defaultStepLimit
    let context : Dict Value := .ofList
      [("conditions", .ofStrings ["prone", "stunned"]), ("immune", .str "prone")]
    let context' : Dict Value := .ofList
      [("c", .str "prone"), ("conditions", .ofStrings ["prone", "stunned"]),
        ("immune", .str "prone"), ("metadata", .null)]
    (∀ name, program.expr.Free name → context'.get? name = context.get? name)
      ∧ ev.run program context' = ev.run program context
      ∧ (ev.run program context).1.result = .ok (.int 5)
      ∧ (ev.run program context).1.rolls = [("1d6", 4)] := by
  intro program ev context context'
  have hagree : ∀ name, program.expr.Free name → context'.get? name = context.get? name := by
    intro name hname
    have hnames : name = "conditions" ∨ name = "immune" := by
      have hreads := Expr.free_iff_reads.mp hname
      simp only [program, Expr.reads, Expr.readsItems, Bool.or_eq_true, Bool.and_eq_true,
        decide_eq_true_eq] at hreads
      grind
    rcases hnames with rfl | rfl <;> rfl
  exact ⟨hagree, (run_depends_on_free_names ev program context).1 context' hagree,
    by decide +kernel, by decide +kernel⟩

end Evaluator

end GameTable
