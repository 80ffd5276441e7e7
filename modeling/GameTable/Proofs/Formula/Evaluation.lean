import GameTable.Formula.Program
import GameTable.Proofs.Formula.Late
import GameTable.Proofs.Stateful

/-!
# What holds of every evaluation

An evaluation touches its machine in two places only: it counts the expressions
it visits, and it rolls dice. Its scope is asked for the values of names and for
the limit of the count, and for nothing else. Everything else is sequencing of
results that leave the machine alone.

So two evaluations of one expression are in step with each other, on machines
with different rollers and in different scopes. A relation between computations
that holds of these, and that sequencing keeps, holds of the two evaluations
(`Sequenced.inStep`), if the scopes agree on the names that the expression reads.
Of the rolls this need only be known if the expression has any, and of the
results that no evaluation of a checked expression can have it need not be known
either. A property of one evaluation is the case of a relation that does not
look at the other one.
-/

namespace GameTable.Formula

/-! ## The parts of an expression -/

namespace Expr

/-- The expressions that an expression is made of. -/
def parts : Expr → List Expr
  | .literal _ | .ident _ => []
  | .list items => items
  | .map entries => entries.flatMap fun (key, value) => [key, value]
  | .member target _ => [target]
  | .index target position => [target, position]
  | .call _ args => args
  | .method target _ args => target :: args
  | .comprehension target _ _ body => [target, body]
  | .unary _ operand => [operand]
  | .binary _ lhs rhs => [lhs, rhs]
  | .conditional cond yes no => [cond, yes, no]

mutual

/-- Whether an expression calls for dice anywhere. -/
def rolls : Expr → Bool
  | .literal _ | .ident _ => false
  | .list items => rollsItems items
  | .map entries => rollsEntries entries
  | .member target _ => target.rolls
  | .index target position => target.rolls || position.rolls
  | .call name args => name = "roll" || rollsItems args
  | .method target _ args => target.rolls || rollsItems args
  | .comprehension target _ _ body => target.rolls || body.rolls
  | .unary _ operand => operand.rolls
  | .binary _ lhs rhs => lhs.rolls || rhs.rolls
  | .conditional cond yes no => cond.rolls || yes.rolls || no.rolls

def rollsItems : List Expr → Bool
  | [] => false
  | e :: rest => e.rolls || rollsItems rest

def rollsEntries : List (Expr × Expr) → Bool
  | [] => false
  | (key, value) :: rest => key.rolls || value.rolls || rollsEntries rest

end

mutual

/-- Whether an expression reads a name, other than as a variable of its own. -/
def reads (name : String) : Expr → Bool
  | .literal _ => false
  | .ident other => other = name
  | .list items => readsItems name items
  | .map entries => readsEntries name entries
  | .member target _ => target.reads name
  | .index target position => target.reads name || position.reads name
  | .call _ args => readsItems name args
  | .method target _ args => target.reads name || readsItems name args
  | .comprehension target _ var body => target.reads name || (var ≠ name && body.reads name)
  | .unary _ operand => operand.reads name
  | .binary _ lhs rhs => lhs.reads name || rhs.reads name
  | .conditional cond yes no => cond.reads name || yes.reads name || no.reads name

def readsItems (name : String) : List Expr → Bool
  | [] => false
  | e :: rest => e.reads name || readsItems name rest

def readsEntries (name : String) : List (Expr × Expr) → Bool
  | [] => false
  | (key, value) :: rest => key.reads name || value.reads name || readsEntries name rest

end

theorem rollsItems_eq_true_iff {es : List Expr} :
    rollsItems es = true ↔ ∃ e ∈ es, e.rolls = true := by
  induction es with
  | nil => simp [rollsItems]
  | cons e rest ih => simp [rollsItems, ih]

theorem rollsEntries_eq_true_iff {entries : List (Expr × Expr)} :
    rollsEntries entries = true
      ↔ ∃ entry ∈ entries, entry.1.rolls = true ∨ entry.2.rolls = true := by
  induction entries with
  | nil => simp [rollsEntries]
  | cons entry rest ih => simp [rollsEntries, ih]

private theorem mem_pair {e a b : Expr} (h : e ∈ [a, b]) : e = a ∨ e = b := by
  simpa using h

theorem sizeOf_lt_of_mem_parts {e part : Expr} (h : part ∈ e.parts) :
    SizeOf.sizeOf part < SizeOf.sizeOf e := by
  cases e with
  | literal | ident => cases h
  | list items =>
      have hitem : SizeOf.sizeOf part < SizeOf.sizeOf items := List.sizeOf_lt_of_mem h
      rw [list.sizeOf_spec]
      omega
  | map entries =>
      obtain ⟨⟨key, value⟩, hentry, hpart⟩ := List.mem_flatMap.mp h
      have hsize := List.sizeOf_lt_of_mem hentry
      rw [Prod.mk.sizeOf_spec] at hsize
      rw [map.sizeOf_spec]
      rcases mem_pair hpart with rfl | rfl <;> omega
  | member target field =>
      obtain rfl := List.mem_singleton.mp h
      rw [member.sizeOf_spec]
      omega
  | index target position =>
      rw [index.sizeOf_spec]
      rcases mem_pair h with rfl | rfl <;> omega
  | call name args =>
      have harg : SizeOf.sizeOf part < SizeOf.sizeOf args := List.sizeOf_lt_of_mem h
      rw [call.sizeOf_spec]
      omega
  | method target name args =>
      rw [method.sizeOf_spec]
      rcases List.mem_cons.mp h with rfl | harg
      · omega
      · have hsize := List.sizeOf_lt_of_mem harg
        omega
  | comprehension target kind var body =>
      rw [comprehension.sizeOf_spec]
      rcases mem_pair h with rfl | rfl <;> omega
  | unary op operand =>
      obtain rfl := List.mem_singleton.mp h
      rw [unary.sizeOf_spec]
      omega
  | binary op lhs rhs =>
      rw [binary.sizeOf_spec]
      rcases mem_pair h with rfl | rfl <;> omega
  | conditional cond yes no =>
      rw [conditional.sizeOf_spec]
      rcases List.mem_cons.mp h with rfl | h
      · omega
      · rcases mem_pair h with rfl | rfl <;> omega

/-- What holds of an expression if it holds of its parts holds of all expressions. -/
theorem induction_on_parts {motive : Expr → Prop}
    (h : ∀ e, (∀ part ∈ e.parts, motive part) → motive e) (e : Expr) : motive e :=
  h e fun part _ => induction_on_parts h part
termination_by SizeOf.sizeOf e
decreasing_by exact sizeOf_lt_of_mem_parts ‹_›

/-- Dice in a part are dice in the whole. -/
theorem rolls_of_mem_parts {e part : Expr} (h : part ∈ e.parts) (hrolls : part.rolls = true) :
    e.rolls = true := by
  cases e <;>
    simp only [parts, rolls, Bool.or_eq_true, rollsItems_eq_true_iff, rollsEntries_eq_true_iff,
      List.mem_flatMap, List.mem_cons, List.not_mem_nil] at h ⊢ <;>
    grind

end Expr

theorem checkAll_eq_ok_iff {es : List Expr} :
    checkAll es = .ok () ↔ ∀ e ∈ es, check e = .ok () := by
  induction es with
  | nil => simp [checkAll]
  | cons e rest ih => simp [checkAll, andThen_eq_ok_iff, ih]

theorem checkEntries_eq_ok_iff {entries : List (Expr × Expr)} :
    checkEntries entries = .ok ()
      ↔ ∀ entry ∈ entries, check entry.1 = .ok () ∧ check entry.2 = .ok () := by
  induction entries with
  | nil => simp [checkEntries]
  | cons entry rest ih => simp [checkEntries, andThen_eq_ok_iff, ih, and_assoc]

/-- What is checked is checked in all parts. -/
theorem check_of_mem_parts {e part : Expr} (h : part ∈ e.parts) (hcheck : check e = .ok ()) :
    check part = .ok () := by
  cases e <;>
    simp only [Expr.parts, check, andThen_eq_ok_iff, checkAll_eq_ok_iff, checkEntries_eq_ok_iff,
      List.mem_flatMap, List.mem_cons, List.not_mem_nil] at h hcheck <;>
    grind

theorem checkArity_eq_ok {name : String} {arity? : Option (Nat × Option Nat)} {found : Nat}
    (h : checkArity name arity? found = .ok ()) :
    ∃ arity, arity? = some arity ∧ accepts arity found = true := by
  rw [checkArity.eq_def] at h
  split at h
  · cases h
  · split at h
    · exact ⟨_, rfl, ‹_›⟩
    · cases h

theorem accepts_some_iff {least most found : Nat} :
    accepts (least, some most) found = true ↔ least ≤ found ∧ found ≤ most := by
  simp [accepts]

theorem Function.name_of_named? {name : String} {f : Function} (h : named? name = some f) :
    f.name = name := by
  simpa using List.find?_some h

/-- A call that was checked rolls dice, looks for an entry, or is one of a function that depends
on its arguments alone. -/
theorem late_callFunction_of_check {name : String} {args : List Expr}
    (h : check (.call name args) = .ok ())
    (hroll : ∀ dice, Function.named? name = some .roll → args = [dice] → False)
    (hfield : ∀ target field,
      Function.named? name = some .has → args = [.member target field] → False)
    (hentry : ∀ target key, Function.named? name = some .has → args = [target, key] → False)
    (values : List Value) : Late (callFunction name values) := by
  rw [check, andThen_eq_ok_iff, andThen_eq_ok_iff] at h
  obtain ⟨harity, hselection, -⟩ := h
  obtain ⟨_, hf, haccepts⟩ := checkArity_eq_ok harity
  obtain ⟨f, hname, rfl⟩ := Option.map_eq_some_iff.mp hf
  apply late_callFunction hname
  · rintro rfl
    have hlength : 1 ≤ args.length ∧ args.length ≤ 1 := accepts_some_iff.mp haccepts
    obtain ⟨dice, rfl⟩ := List.length_eq_one_iff.mp (by omega : args.length = 1)
    exact hroll dice hname rfl
  · rintro rfl
    have hlength : 1 ≤ args.length ∧ args.length ≤ 2 := accepts_some_iff.mp haccepts
    have hhas : name = "has" := (Function.name_of_named? hname).symm
    match args with
    | [.member target field] => exact hfield target field hname rfl
    | [target, key] => exact hentry target key hname rfl
    | [.literal _] | [.ident _] | [.list _] | [.map _] | [.index ..] | [.call ..] | [.method ..]
    | [.comprehension ..] | [.unary ..] | [.binary ..] | [.conditional ..] =>
        simp [checkSelection, hhas] at hselection
    | _ :: _ :: _ :: rest => simp at hlength

/-! ## Scopes -/

/-- Scopes with these limits that give the same values to some names. -/
structure Scope.Alike (limit limit' : Nat) (names : String → Bool) (scope scope' : Scope) :
    Prop where
  limit : scope.limit = limit
  limit' : scope'.limit = limit'
  lookup : ∀ name, names name = true → scope'.lookup name = scope.lookup name

namespace Scope.Alike

variable {limit limit' : Nat} {names : String → Bool} {scope scope' : Scope}

theorem refl (names : String → Bool) (scope : Scope) :
    Alike scope.limit scope.limit names scope scope := ⟨rfl, rfl, fun _ _ => rfl⟩

theorem mono {fewer : String → Bool} (h : Alike limit limit' names scope scope')
    (hfewer : ∀ name, fewer name = true → names name = true) :
    Alike limit limit' fewer scope scope' :=
  ⟨h.limit, h.limit', fun name hname => h.lookup name (hfewer name hname)⟩

theorem left {others : String → Bool}
    (h : Alike limit limit' (fun name => names name || others name) scope scope') :
    Alike limit limit' names scope scope' :=
  h.mono fun name hname => by simp [hname]

theorem right {others : String → Bool}
    (h : Alike limit limit' (fun name => others name || names name) scope scope') :
    Alike limit limit' names scope scope' :=
  h.mono fun name hname => by simp [hname]

/-- The variable of a comprehension is the same in both, whatever the context is. -/
theorem bind {var : String}
    (h : Alike limit limit' (fun name => var ≠ name && names name) scope scope') (item : Value) :
    Alike limit limit' names (scope.bind var item) (scope'.bind var item) where
  limit := h.limit
  limit' := h.limit'
  lookup name hname := by
    by_cases hvar : var = name
    · simp [Scope.bind, Scope.lookup, Entries.get?, hvar]
    · have houter := h.lookup name (by simp [hvar, hname])
      simpa [Scope.bind, Scope.lookup, Entries.get?, hvar] using houter

end Scope.Alike

/-! ## Evaluating -/

variable {ρ σ : Type} {R : ∀ {α : Type}, Eval ρ α → Eval σ α → Prop} {limit limit' : Nat}

/-- A relation between computations that holds of a visit, counted against these limits, and of
results that are known late, and that sequencing keeps. -/
structure Sequenced (R : ∀ {α : Type}, Eval ρ α → Eval σ α → Prop) (limit limit' : Nat) :
    Prop where
  late : ∀ {α : Type} {r : Outcome α}, Late r → R (outcome r : Eval ρ α) (outcome r : Eval σ α)
  tick : R (tick limit : Eval ρ Unit) (tick limit' : Eval σ Unit)
  bind : ∀ {α β : Type} {x : Eval ρ α} {y : Eval σ α} {next : α → Eval ρ β} {next' : α → Eval σ β},
    R x y → (∀ a, R (next a) (next' a)) → R (x >>= next) (y >>= next')

namespace Sequenced

theorem pure (h : Sequenced R limit limit') {α : Type} (a : α) :
    R (pure a : Eval ρ α) (pure a : Eval σ α) := h.late (late_ok a)

theorem visit (h : Sequenced R limit limit') {α : Type} {x : Eval ρ α} {y : Eval σ α}
    (hxy : R x y) : R (Formula.tick limit >>= fun _ => x) (Formula.tick limit' >>= fun _ => y) :=
  h.bind h.tick fun _ => hxy

theorem runComprehension (h : Sequenced R limit limit') {body : Value → Eval ρ Value}
    {body' : Value → Eval σ Value} (hbody : ∀ v, R (body v) (body' v)) (kind : Comprehension)
    (kept items : List Value) :
    R (runComprehension kind body kept items) (runComprehension kind body' kept items) := by
  induction items generalizing kept with
  | nil => exact h.pure _
  | cons item rest ih =>
      rw [Formula.runComprehension, Formula.runComprehension]
      refine h.bind (hbody item) fun result => h.bind (h.late (late_judge ..)) fun verdict => ?_
      cases verdict with
      | stop v => exact h.pure v
      | keep v => exact ih _
      | pass => exact ih _

end Sequenced

variable [Roller ρ] [Roller σ]

/-- What else a relation has to hold of for an expression: of all results unless the expression
is checked, and of rolls if it rolls dice. -/
structure Permits (R : ∀ {α : Type}, Eval ρ α → Eval σ α → Prop) (e : Expr) : Prop where
  outcome : check e = .ok ()
    ∨ ∀ {α : Type} (r : Outcome α), R (outcome r : Eval ρ α) (outcome r : Eval σ α)
  rollDice : e.rolls = true →
    ∀ dice, R (rollDice dice : Eval ρ Value) (rollDice dice : Eval σ Value)

theorem Permits.part {e part : Expr} (h : Permits R e) (hpart : part ∈ e.parts) :
    Permits R part where
  outcome := h.outcome.imp_left (check_of_mem_parts hpart)
  rollDice hrolls := h.rollDice (Expr.rolls_of_mem_parts hpart hrolls)

/-- The two evaluations of an expression are related, in scopes that are alike to it. -/
def InStep (R : ∀ {α : Type}, Eval ρ α → Eval σ α → Prop) (limit limit' : Nat) (e : Expr) : Prop :=
  ∀ ⦃scope scope' : Scope⦄, Scope.Alike limit limit' (fun name => e.reads name) scope scope' →
    R (eval scope e : Eval ρ Value) (eval scope' e : Eval σ Value)

namespace Sequenced

variable {scope scope' : Scope}

theorem evalAll (h : Sequenced R limit limit') {es : List Expr}
    (hes : ∀ e ∈ es, InStep R limit limit' e)
    (halike : Scope.Alike limit limit' (fun name => Expr.readsItems name es) scope scope') :
    R (evalAll scope es) (evalAll scope' es) := by
  induction es with
  | nil => exact h.pure _
  | cons e rest ih =>
      rw [List.forall_mem_cons] at hes
      simp only [Expr.readsItems] at halike
      exact h.bind (hes.1 halike.left) fun _ => h.bind (ih hes.2 halike.right) fun _ => h.pure _

theorem evalEntries (h : Sequenced R limit limit') (entries : List (String × Value))
    {es : List (Expr × Expr)}
    (hes : ∀ entry ∈ es, InStep R limit limit' entry.1 ∧ InStep R limit limit' entry.2)
    (halike : Scope.Alike limit limit' (fun name => Expr.readsEntries name es) scope scope') :
    R (evalEntries scope entries es) (evalEntries scope' entries es) := by
  induction es generalizing entries with
  | nil => exact h.pure _
  | cons entry rest ih =>
      rw [List.forall_mem_cons] at hes
      simp only [Expr.readsEntries] at halike
      exact h.bind (hes.1.1 halike.left.left) fun _ => h.bind (h.late (late_keyText _)) fun _ =>
        h.bind (hes.1.2 halike.left.right) fun _ => ih _ hes.2 halike.right

/-- A call evaluates its arguments, or looks into the first of them for a field. -/
theorem eval_call (h : Sequenced R limit limit') (name : String) (args : List Expr)
    (hp : Permits R (.call name args)) (hargs : ∀ e ∈ args, InStep R limit limit' e)
    (hfields : ∀ e ∈ args, ∀ part ∈ e.parts, InStep R limit limit' part) :
    InStep R limit limit' (.call name args) := by
  intro scope scope' halike
  simp only [Expr.reads] at halike
  rw [Formula.eval.eq_def, Formula.eval.eq_def scope', halike.limit, halike.limit']
  refine h.visit ?_
  dsimp only
  split
  · rename_i dice hname
    have hrolls : (Expr.call name [dice]).rolls = true := by
      simp [Expr.rolls, ← Function.name_of_named? hname, Function.name]
    simp only [Expr.readsItems, Bool.or_false] at halike
    exact h.bind (hargs dice (List.mem_singleton_self _) halike) fun _ => hp.rollDice hrolls _
  · rename_i target field _
    simp only [Expr.readsItems, Expr.reads, Bool.or_false] at halike
    have htarget := hfields _ (List.mem_singleton_self _) target (List.mem_singleton_self _)
    exact h.bind (htarget halike) fun _ => h.pure _
  · rename_i target key _ _
    rw [List.forall_mem_cons, List.forall_mem_singleton] at hargs
    simp only [Expr.readsItems, Bool.or_false] at halike
    exact h.bind (hargs.1 halike.left) fun _ => h.bind (hargs.2 halike.right) fun _ => h.pure _
  · rename_i hroll hfield hentry
    refine h.bind (h.evalAll hargs halike) fun values => ?_
    exact hp.outcome.elim
      (fun hcheck => h.late (late_callFunction_of_check hcheck hroll hfield hentry values))
      fun hall => hall _

/-- The operands of `and` and `or` are evaluated as far as they matter. -/
theorem eval_binary (h : Sequenced R limit limit') (op : BinaryOp) {lhs rhs : Expr}
    (hlhs : InStep R limit limit' lhs) (hrhs : InStep R limit limit' rhs) :
    InStep R limit limit' (.binary op lhs rhs) := by
  intro scope scope' halike
  simp only [Expr.reads] at halike
  have hlhs := hlhs halike.left
  have hrhs := hrhs halike.right
  rw [Formula.eval.eq_def, Formula.eval.eq_def scope', halike.limit, halike.limit']
  refine h.visit ?_
  cases op with
  | and =>
      refine h.bind hlhs fun _ => h.bind (h.late (late_truth ..)) fun holds => ?_
      cases holds with
      | true => exact h.bind hrhs fun _ => h.bind (h.late (late_truth ..)) fun _ => h.pure _
      | false => exact h.pure _
  | or =>
      refine h.bind hlhs fun _ => h.bind (h.late (late_truth ..)) fun holds => ?_
      cases holds with
      | true => exact h.pure _
      | false => exact h.bind hrhs fun _ => h.bind (h.late (late_truth ..)) fun _ => h.pure _
  | _ => exact h.bind hlhs fun _ => h.bind hrhs fun _ => h.late (late_applyBinary ..)

/-- The evaluation of an expression is made of those of its parts, and of the parts of these. -/
theorem eval_of_parts (h : Sequenced R limit limit') (e : Expr) (hp : Permits R e)
    (hparts : ∀ part ∈ e.parts, InStep R limit limit' part)
    (hinner : ∀ part ∈ e.parts, ∀ inner ∈ part.parts, InStep R limit limit' inner) :
    InStep R limit limit' e := by
  have hnth : ∀ (i : Nat) {part}, e.parts[i]? = some part → InStep R limit limit' part :=
    fun _ _ heq => hparts _ (List.mem_of_getElem? heq)
  cases e
  case call name args => exact h.eval_call name args hp hparts hinner
  case binary op lhs rhs => exact h.eval_binary op (hnth 0 rfl) (hnth 1 rfl)
  all_goals
    intro scope scope' halike
    simp only [Expr.reads] at halike
    rw [Formula.eval.eq_def, Formula.eval.eq_def scope', halike.limit, halike.limit']
    refine h.visit ?_
    dsimp only
  case literal v => exact h.pure v
  case ident name =>
    rw [halike.lookup name (decide_eq_true rfl)]
    exact h.late (late_lookup ..)
  case list items => exact h.bind (h.evalAll hparts halike) fun _ => h.pure _
  case map entries =>
    have hmem : ∀ entry ∈ entries, ∀ part ∈ [entry.1, entry.2], part ∈ (Expr.map entries).parts :=
      fun entry hentry part hpart => List.mem_flatMap.mpr ⟨entry, hentry, hpart⟩
    have hentries : ∀ entry ∈ entries,
        InStep R limit limit' entry.1 ∧ InStep R limit limit' entry.2 := fun entry hentry =>
      ⟨hparts _ (hmem entry hentry _ (.head _)), hparts _ (hmem entry hentry _ (.tail _ (.head _)))⟩
    exact h.bind (h.evalEntries [] hentries halike) fun _ => h.pure _
  case member target field =>
    exact h.bind (hnth 0 rfl halike) fun _ => h.late (late_selectField ..)
  case index target position =>
    exact h.bind (hnth 0 rfl halike.left) fun _ => h.bind (hnth 1 rfl halike.right) fun _ =>
      h.late (late_selectIndex ..)
  case method target name args =>
    have hargs := h.evalAll (fun e he => hparts e (List.mem_cons_of_mem target he)) halike.right
    refine h.bind (hnth 0 rfl halike.left) fun _ => h.bind hargs fun _ => ?_
    refine hp.outcome.elim (fun hcheck => h.late ?_) fun hall => hall _
    rw [check, andThen_eq_ok_iff] at hcheck
    obtain ⟨_, hmethod, -⟩ := checkArity_eq_ok hcheck.1
    obtain ⟨method, hmethod, -⟩ := Option.map_eq_some_iff.mp hmethod
    exact late_callMethod hmethod ..
  case comprehension target kind var body =>
    exact h.bind (hnth 0 rfl halike.left) fun _ => h.bind (h.late (late_iterated _)) fun _ =>
      h.runComprehension (fun item => hnth 1 rfl (halike.right.bind item)) ..
  case unary op operand =>
    exact h.bind (hnth 0 rfl halike) fun _ => h.late (late_applyUnary ..)
  case conditional cond yes no =>
    refine h.bind (hnth 0 rfl halike.left.left) fun _ => h.bind (h.late (late_truth ..))
      fun holds => ?_
    cases holds with
    | true => exact hnth 1 rfl halike.left.right
    | false => exact hnth 2 rfl halike.right

/-- What is kept by sequencing holds of the evaluations of every expression that permits it. -/
theorem inStep (h : Sequenced R limit limit') (e : Expr) (hp : Permits R e) :
    InStep R limit limit' e := by
  -- The field of a call of `has` is a part of a part, so the claim is made of the parts too.
  suffices hboth : ∀ e : Expr, Permits R e → InStep R limit limit' e
      ∧ ∀ part ∈ e.parts, InStep R limit limit' part from (hboth e hp).1
  intro e
  induction e using Expr.induction_on_parts with
  | h e ih =>
      intro hp
      have hparts := fun part hpart => ih part hpart (hp.part hpart)
      refine ⟨?_, fun part hpart => (hparts part hpart).1⟩
      exact h.eval_of_parts e hp (fun part hpart => (hparts part hpart).1)
        fun part hpart => (hparts part hpart).2

end Sequenced

end GameTable.Formula
