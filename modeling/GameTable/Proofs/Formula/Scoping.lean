import GameTable.Proofs.Formula.Reads

/-!
# Where a variable is in scope

The evaluator hands the variables of the comprehensions down to the bodies. One
that keeps them on a stack has to put each variable there before the body and to
take it off again after it, on the way out of a failure too; forgetting that
once would leave the variable in force for the rest of the formula. Here is such
an evaluator (`evalStacked`), and it does the same as `eval` and leaves the stack
as it found it (`mirrors_eval`).

What is on the stack might as well be in the context: a variable replaces what
the context has under its name, and an inner one what an outer one has
(`eval_rebound`). So a variable is in force in the body of its comprehension,
over everything else of its name, and nowhere else.
-/

namespace GameTable

open Formula

variable {ρ : Type}

namespace Formula

/-! ## Variables in the context -/

/-- A context with variables put in, the innermost of them, which comes first,
in the last place. -/
def rebound (locals : List (String × Value)) (context : Dict Value) : Dict Value :=
  locals.foldr (fun (name, v) context => context.insert name v) context

theorem get?_rebound (locals : List (String × Value)) (context : Dict Value) (name : String) :
    (rebound locals context).get? name
      = (Entries.get? locals name).or (context.get? name) := by
  induction locals with
  | nil => rfl
  | cons entry locals ih =>
      obtain ⟨var, v⟩ := entry
      change ((rebound locals context).insert var v).get? name = _
      rw [Dict.get?_insert, Entries.get?]
      split
      · rfl
      · exact ih

theorem lookup_rebound (locals : List (String × Value)) (context : Dict Value) (limit : Nat)
    (name : String) :
    Scope.lookup ⟨[], rebound locals context, limit⟩ name
      = Scope.lookup ⟨locals, context, limit⟩ name := by
  simp only [Scope.lookup, get?_rebound, Entries.get?]
  cases Entries.get? locals name with
  | none => rfl
  | some v => rfl

/-- A variable has its value, and the other names have those they had. -/
theorem lookup_bind (scope : Scope) (var : String) (item : Value) (name : String) :
    (scope.bind var item).lookup name = if var = name then .ok item else scope.lookup name := by
  by_cases hvar : var = name
  · simp only [Scope.bind, Scope.lookup, Entries.get?, if_pos hvar]
  · simp only [Scope.bind, Scope.lookup, Entries.get?, if_neg hvar]

theorem eval_rebound [Roller ρ] (locals : List (String × Value)) (context : Dict Value)
    (limit : Nat) (e : Expr) :
    (eval ⟨[], rebound locals context, limit⟩ e : Eval ρ Value)
      = eval ⟨locals, context, limit⟩ e :=
  eval_congr e ⟨rfl, rfl, fun name _ => lookup_rebound locals context limit name⟩

/-! ## Variables on a stack -/

/-- A machine with the variables in force on a stack, innermost first. -/
structure StackMachine (ρ : Type) where
  stack : List (String × Value)
  machine : Machine ρ

/-- A computation that may fail and keeps its machine and its stack when it does. -/
abbrev StackEval (ρ : Type) := ExceptT FormulaError (StateM (StackMachine ρ))

/-- What does not look at the stack. -/
def unstacked {α : Type} (x : Eval ρ α) : StackEval ρ α := fun s =>
  let (result, m) := x s.machine
  (result, { s with machine := m })

/-- The value of a name, for which the stack is searched first. -/
def lookupStacked (context : Dict Value) (limit : Nat) (name : String) : StackEval ρ Value :=
  fun s => (Scope.lookup ⟨s.stack, context, limit⟩ name, s)

/-- Puts a variable on the stack, and takes one off again, however the body ended. -/
def withVariable {α : Type} (var : String) (item : Value) (body : StackEval ρ α) :
    StackEval ρ α := fun s =>
  let (result, s) := body { s with stack := (var, item) :: s.stack }
  (result, { s with stack := s.stack.tail })

/-- Runs the body over the items in order, each of them on the stack in its turn. -/
def iterateStacked (kind : Comprehension) (var : String) (body : StackEval ρ Value) :
    List Value → List Value → StackEval ρ Value
  | kept, [] => return kind.complete kept
  | kept, item :: rest => do
    let result ← withVariable var item body
    match ← unstacked (outcome (kind.judge item result)) with
    | .stop v => return v
    | .keep v => iterateStacked kind var body (kept ++ [v]) rest
    | .pass => iterateStacked kind var body kept rest

section

variable [Roller ρ] (context : Dict Value) (limit : Nat)

mutual

/-- The evaluation of an expression with the variables on a stack. -/
def evalStacked (e : Expr) : StackEval ρ Value := do
  unstacked (tick limit)
  match e with
  | .literal v => return v
  | .ident name => lookupStacked context limit name
  | .list items => return .list (← evalStackedAll items)
  | .map entries => return .map (← evalStackedEntries [] entries)
  | .member target field =>
    let v ← evalStacked target
    unstacked (outcome (selectField field v))
  | .index target position =>
    let v ← evalStacked target
    let i ← evalStacked position
    unstacked (outcome (selectIndex v i))
  | .call name args =>
    match args, Function.named? name with
    | [dice], some .roll =>
      let d ← evalStacked dice
      unstacked (rollDice d)
    | [.member target field], some .has => return hasEntry (← evalStacked target) field
    | [target, key], some .has =>
      let v ← evalStacked target
      let k ← evalStacked key
      return hasEntry v k.text
    | args, _ =>
      let vs ← evalStackedAll args
      unstacked (outcome (callFunction name vs))
  | .method target name args =>
    let v ← evalStacked target
    let vs ← evalStackedAll args
    unstacked (outcome (callMethod name v vs))
  | .comprehension target kind var body =>
    let v ← evalStacked target
    let items ← unstacked (outcome (iterated v))
    iterateStacked kind var (evalStacked body) [] items
  | .unary op operand =>
    let v ← evalStacked operand
    unstacked (outcome (applyUnary op v))
  | .binary .and lhs rhs =>
    let a ← evalStacked lhs
    if ← unstacked (outcome (truth "&&" a)) then
      let b ← evalStacked rhs
      return .bool (← unstacked (outcome (truth "&&" b)))
    else return .bool false
  | .binary .or lhs rhs =>
    let a ← evalStacked lhs
    if ← unstacked (outcome (truth "||" a)) then return .bool true
    else
      let b ← evalStacked rhs
      return .bool (← unstacked (outcome (truth "||" b)))
  | .binary op lhs rhs =>
    let a ← evalStacked lhs
    let b ← evalStacked rhs
    unstacked (outcome (applyBinary op a b))
  | .conditional cond yes no =>
    let c ← evalStacked cond
    if ← unstacked (outcome (truth "?:" c)) then evalStacked yes else evalStacked no

/-- Evaluates expressions from left to right with the variables on a stack. -/
def evalStackedAll (es : List Expr) : StackEval ρ (List Value) :=
  match es with
  | [] => return []
  | e :: rest => do
    let v ← evalStacked e
    let vs ← evalStackedAll rest
    return v :: vs

/-- Evaluates the entries of a map from left to right with the variables on a stack. -/
def evalStackedEntries (entries : List (String × Value)) (es : List (Expr × Expr)) :
    StackEval ρ (List (String × Value)) :=
  match es with
  | [] => return entries
  | (key, value) :: rest => do
    let k ← unstacked (outcome (keyText (← evalStacked key)))
    let v ← evalStacked value
    evalStackedEntries (Entries.insert entries k v) rest

end

end

/-! ## The stack after an evaluation -/

/-- From a machine with this stack, a computation comes to what one without a
stack comes to, and the stack is as it was, whether it succeeds or fails. -/
def Mirrors (stack : List (String × Value)) {α : Type} (x : StackEval ρ α) (y : Eval ρ α) : Prop :=
  ∀ m, x ⟨stack, m⟩ = ((y m).1, ⟨stack, (y m).2⟩)

section

variable {stack : List (String × Value)} {α β : Type}

theorem mirrors_unstacked (x : Eval ρ α) : Mirrors stack (unstacked x) x := fun _ => rfl

theorem mirrors_pure (a : α) : Mirrors stack (pure a : StackEval ρ α) (pure a) := fun _ => rfl

theorem Mirrors.bind {x : StackEval ρ α} {y : Eval ρ α} {next : α → StackEval ρ β}
    {next' : α → Eval ρ β} (h : Mirrors stack x y) (hnext : ∀ a, Mirrors stack (next a) (next' a)) :
    Mirrors stack (x >>= next) (y >>= next') := by
  intro m
  have hx := h m
  rcases hy : y m with ⟨err | a, t⟩
  · rw [hy] at hx
    rw [run_bind_of_error hx, run_bind_of_error hy]
  · rw [hy] at hx
    rw [run_bind_of_ok hx, run_bind_of_ok hy]
    exact hnext a t

theorem mirrors_withVariable {var : String} {item : Value} {body : StackEval ρ α} {y : Eval ρ α}
    (h : Mirrors ((var, item) :: stack) body y) :
    Mirrors stack (withVariable var item body) y := by
  intro m
  simp only [withVariable, h m, List.tail_cons]

theorem mirrors_iterateStacked {var : String} {body : StackEval ρ Value} {y : Value → Eval ρ Value}
    (h : ∀ item, Mirrors ((var, item) :: stack) body (y item)) (kind : Comprehension)
    (kept items : List Value) :
    Mirrors stack (iterateStacked kind var body kept items)
      (runComprehension kind y kept items) := by
  induction items generalizing kept with
  | nil => exact mirrors_pure _
  | cons item rest ih =>
      refine (mirrors_withVariable (h item)).bind fun result => (mirrors_unstacked _).bind ?_
      rintro (v | v | _)
      · exact mirrors_pure v
      · exact ih _
      · exact ih _

end

section

variable [Roller ρ] {context : Dict Value} {limit : Nat} {stack : List (String × Value)}

/-- The evaluation of an expression leaves every stack alone, and does what `eval` does. -/
def Balanced (ρ : Type) [Roller ρ] (context : Dict Value) (limit : Nat) (e : Expr) : Prop :=
  ∀ stack, Mirrors (ρ := ρ) stack (evalStacked context limit e) (eval ⟨stack, context, limit⟩ e)

theorem mirrors_evalStackedAll {es : List Expr} (hes : ∀ e ∈ es, Balanced ρ context limit e) :
    Mirrors (ρ := ρ) stack (evalStackedAll context limit es)
      (evalAll ⟨stack, context, limit⟩ es) := by
  induction es with
  | nil => exact mirrors_pure _
  | cons e rest ih =>
      rw [List.forall_mem_cons] at hes
      exact (hes.1 stack).bind fun _ => (ih hes.2).bind fun _ => mirrors_pure _

theorem mirrors_evalStackedEntries (entries : List (String × Value)) {es : List (Expr × Expr)}
    (hes : ∀ entry ∈ es, Balanced ρ context limit entry.1 ∧ Balanced ρ context limit entry.2) :
    Mirrors (ρ := ρ) stack (evalStackedEntries context limit entries es)
      (evalEntries ⟨stack, context, limit⟩ entries es) := by
  induction es generalizing entries with
  | nil => exact mirrors_pure _
  | cons entry rest ih =>
      rw [List.forall_mem_cons] at hes
      exact (hes.1.1 stack).bind fun _ => (mirrors_unstacked _).bind fun _ =>
        (hes.1.2 stack).bind fun _ => ih _ hes.2

/-- Each part of an expression finds the stack as the expression found it, but
for the body of a comprehension, which finds its variable on top. -/
theorem balanced_of_parts {e : Expr} (hparts : ∀ part ∈ e.parts, Balanced ρ context limit part)
    (hinner : ∀ part ∈ e.parts, ∀ inner ∈ part.parts, Balanced ρ context limit inner) :
    Balanced ρ context limit e := by
  have hnth : ∀ (i : Nat) {part}, e.parts[i]? = some part → Balanced ρ context limit part :=
    fun _ _ heq => hparts _ (List.mem_of_getElem? heq)
  intro stack
  rw [evalStacked.eq_def, eval.eq_def]
  refine (mirrors_unstacked _).bind fun _ => ?_
  cases e with
  | literal v => exact mirrors_pure v
  | ident name => exact fun _ => rfl
  | list items => exact (mirrors_evalStackedAll hparts).bind fun _ => mirrors_pure _
  | map entries =>
      have hmem : ∀ entry ∈ entries, ∀ part ∈ [entry.1, entry.2],
          part ∈ (Expr.map entries).parts :=
        fun entry hentry part hpart => List.mem_flatMap.mpr ⟨entry, hentry, hpart⟩
      have hentries : ∀ entry ∈ entries,
          Balanced ρ context limit entry.1 ∧ Balanced ρ context limit entry.2 :=
        fun entry hentry => ⟨hparts _ (hmem entry hentry _ (.head _)),
          hparts _ (hmem entry hentry _ (.tail _ (.head _)))⟩
      exact (mirrors_evalStackedEntries [] hentries).bind fun _ => mirrors_pure _
  | member target field => exact (hnth 0 rfl stack).bind fun _ => mirrors_unstacked _
  | index target position =>
      exact (hnth 0 rfl stack).bind fun _ => (hnth 1 rfl stack).bind fun _ => mirrors_unstacked _
  | call name args =>
      dsimp only
      split
      · rename_i hname
        rw [hname]
        exact (hnth 0 rfl stack).bind fun _ => mirrors_unstacked _
      · rename_i hname
        rw [hname]
        have htarget := hinner _ (.head _) _ (.head _)
        exact (htarget stack).bind fun _ => mirrors_pure _
      · rename_i hname
        simp only [hname]
        exact (hnth 0 rfl stack).bind fun _ => (hnth 1 rfl stack).bind fun _ => mirrors_pure _
      · rename_i hroll hfield hentry
        split
        · exact (hroll _ rfl ‹_›).elim
        · exact (hfield _ _ rfl ‹_›).elim
        · exact (hentry _ _ rfl ‹_›).elim
        · exact (mirrors_evalStackedAll hparts).bind fun _ => mirrors_unstacked _
  | method target name args =>
      have hargs : ∀ e ∈ args, Balanced ρ context limit e :=
        fun e he => hparts e (List.mem_cons_of_mem target he)
      exact (hnth 0 rfl stack).bind fun _ => (mirrors_evalStackedAll hargs).bind fun _ =>
        mirrors_unstacked _
  | comprehension target kind var body =>
      exact (hnth 0 rfl stack).bind fun _ => (mirrors_unstacked _).bind fun _ =>
        mirrors_iterateStacked (fun item => hnth 1 rfl ((var, item) :: stack)) kind [] _
  | unary op operand => exact (hnth 0 rfl stack).bind fun _ => mirrors_unstacked _
  | binary op lhs rhs =>
      have hlhs := hnth 0 rfl stack
      have hrhs := hnth 1 rfl stack
      cases op with
      | and =>
          refine hlhs.bind fun _ => (mirrors_unstacked _).bind fun holds => ?_
          cases holds with
          | true => exact hrhs.bind fun _ => (mirrors_unstacked _).bind fun _ => mirrors_pure _
          | false => exact mirrors_pure _
      | or =>
          refine hlhs.bind fun _ => (mirrors_unstacked _).bind fun holds => ?_
          cases holds with
          | true => exact mirrors_pure _
          | false => exact hrhs.bind fun _ => (mirrors_unstacked _).bind fun _ => mirrors_pure _
      | _ => exact hlhs.bind fun _ => hrhs.bind fun _ => mirrors_unstacked _
  | conditional cond yes no =>
      refine (hnth 0 rfl stack).bind fun _ => (mirrors_unstacked _).bind fun holds => ?_
      cases holds with
      | true => exact hnth 1 rfl stack
      | false => exact hnth 2 rfl stack

theorem balanced (e : Expr) : Balanced ρ context limit e := by
  -- The field of a call of `has` is a part of a part, so the claim is made of the parts too.
  suffices hboth : ∀ e : Expr, Balanced ρ context limit e
      ∧ ∀ part ∈ e.parts, Balanced ρ context limit part from (hboth e).1
  intro e
  induction e using Expr.induction_on_parts with
  | h e ih =>
      have hparts := fun part hpart => (ih part hpart).1
      exact ⟨balanced_of_parts hparts fun part hpart => (ih part hpart).2, hparts⟩

/-- Evaluated with any variables on the stack, an expression comes to what it
comes to with an empty stack and the variables in the context, the innermost
last: the same value or error, the same rolls, the same count of visits and the
same roller left. Both are what `eval` comes to, and the stack is afterwards as
it was before, whether there is a value or an error. So in the body of a
comprehension its variable stands for the item whatever else has its name, the
other names stand for what they stand for outside, and what is evaluated before
and after the body knows nothing of it. -/
theorem variables_are_lexical (context : Dict Value) (limit : Nat) (e : Expr)
    (stack : List (String × Value)) (m : Machine ρ) :
    (let (result, after) := evalStacked context limit e ⟨stack, m⟩
      let (result', after') := evalStacked (rebound stack context) limit e ⟨[], m⟩
      result = result' ∧ after.machine = after'.machine ∧ after.stack = stack ∧ after'.stack = []
        ∧ eval ⟨stack, context, limit⟩ e m = (result, after.machine))
      ∧ (∀ target kind var body,
        (eval ⟨stack, context, limit⟩ (.comprehension target kind var body) : Eval ρ Value) = do
          tick limit
          let v ← eval ⟨[], rebound stack context, limit⟩ target
          let items ← outcome (iterated v)
          runComprehension kind (fun item =>
            eval ⟨[], (rebound stack context).insert var item, limit⟩ body) [] items)
      ∧ ∀ (var : String) (item : Value) (name : String),
        (Scope.bind ⟨stack, context, limit⟩ var item).lookup name
          = if var = name then .ok item else Scope.lookup ⟨stack, context, limit⟩ name := by
  refine ⟨?_, ?_, lookup_bind _⟩
  · have hbalanced (context : Dict Value) : Balanced ρ context limit e := balanced e
    have hempty := hbalanced (rebound stack context) [] m
    rw [eval_rebound] at hempty
    rw [hbalanced context stack m, hempty]
    exact ⟨rfl, rfl, rfl, rfl, rfl⟩
  · intro target kind var body
    rw [eval.eq_def, eval_rebound]
    refine bind_congr fun _ => bind_congr fun _ => bind_congr fun items => ?_
    have hbody (item : Value) :
        (eval ⟨[], (rebound stack context).insert var item, limit⟩ body : Eval ρ Value)
          = eval ⟨(var, item) :: stack, context, limit⟩ body :=
      eval_rebound ((var, item) :: stack) context limit body
    simp only [hbody]
    rfl

end

end Formula

end GameTable
