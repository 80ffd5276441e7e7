import GameTable.Dice.Roller
import GameTable.Formula.Library

/-!
# Evaluation

An expression is evaluated in a scope: the variables of the comprehensions around it, innermost
first, and the context that the caller supplies. What changes while it runs is kept in a
`Machine`: the roller, the rolls made so far, and the number of expressions visited. A failure
leaves the machine as it was when the evaluation stopped, so that the rolls made before it are
known; and evaluation stops as soon as more expressions have been visited than the limit allows.
-/

namespace GameTable.Formula

/-- A roll that was made: the notation and the total. -/
abbrev RollRecord := String × Int

/-- What an evaluation changes. -/
structure Machine (ρ : Type) where
  roller : ρ
  rolls : List RollRecord
  steps : Nat

/-- A computation that may fail and keeps its machine when it does. -/
abbrev Eval (ρ : Type) := ExceptT FormulaError (StateM (Machine ρ))

/-- Where names get their values. -/
structure Scope where
  /-- The variables of enclosing comprehensions, innermost first. -/
  locals : List (String × Value)
  context : Dict Value
  limit : Nat

/-- Names that are null when the context does not have them. -/
def predeclared : List String :=
  ["actor", "target", "action", "command", "steps", "metadata", "manifest",
   "pending_adjudication", "is_frozen", "is_encounter_active", "entities"]

namespace Scope

/-- Variables come before the context, and the context before the predeclared names. -/
def lookup (scope : Scope) (name : String) : Outcome Value :=
  match Entries.get? scope.locals name with
  | some v => .ok v
  | none =>
    match scope.context.get? name with
    | some v => .ok v
    | none => if name ∈ predeclared then .ok .null else .error (.undeclared name)

def bind (scope : Scope) (name : String) (v : Value) : Scope :=
  { scope with locals := (name, v) :: scope.locals }

end Scope

variable {ρ : Type}

/-- Counts the visit of one expression. -/
def tick (limit : Nat) : Eval ρ Unit := do
  let m ← get
  set { m with steps := m.steps + 1 }
  if m.steps + 1 > limit then throw (.stepLimit limit)

/-- A result that does not touch the machine. -/
def outcome {α : Type} (r : Outcome α) : Eval ρ α := fun m => (r, m)

/-- Rolls dice and records the total; dice that cannot be rolled are not recorded. -/
def rollDice [Roller ρ] (dice : Value) : Eval ρ Value :=
  match dice with
  | .str s => fun m =>
    match Roller.roll m.roller s with
    | (.ok n, roller) => (.ok (.int n), { m with roller, rolls := m.rolls ++ [(s, n)] })
    | (.error e, roller) => (.error (.dice e), { m with roller })
  | v => throw (.type (.diceText v.typeName))

/-- Whether a value is a map with an entry of that name. -/
def hasEntry (v : Value) (key : String) : Value := .bool (v.get? key).isSome

/-- What a comprehension does with the result of its body at one item: stop with a value, or go on
having kept something. -/
inductive Verdict where
  | stop (v : Value)
  | keep (v : Value)
  | pass

def Comprehension.judge (kind : Comprehension) (item result : Value) : Outcome Verdict :=
  match kind with
  | .any => return if ← truth "exists" result then .stop (.bool true) else .pass
  | .all => return if ← truth "all" result then .pass else .stop (.bool false)
  | .filter => return if ← truth "filter" result then .keep item else .pass
  | .map => .ok (.keep result)

/-- The value of a comprehension that has gone through all items. -/
def Comprehension.complete (kind : Comprehension) (kept : List Value) : Value :=
  match kind with
  | .any => .bool false
  | .all => .bool true
  | .filter | .map => .list kept

/-- Runs the body over the items in order. -/
def runComprehension (kind : Comprehension) (body : Value → Eval ρ Value) :
    List Value → List Value → Eval ρ Value
  | kept, [] => return kind.complete kept
  | kept, item :: rest => do
    let result ← body item
    match ← outcome (kind.judge item result) with
    | .stop v => return v
    | .keep v => runComprehension kind body (kept ++ [v]) rest
    | .pass => runComprehension kind body kept rest

variable [Roller ρ]

mutual

def eval (scope : Scope) (e : Expr) : Eval ρ Value := do
  tick scope.limit
  match e with
  | .literal v => return v
  | .ident name => outcome (scope.lookup name)
  | .list items => return .list (← evalAll scope items)
  | .map entries => return .map (← evalEntries scope [] entries)
  | .member target field =>
    let v ← eval scope target
    outcome (selectField field v)
  | .index target position =>
    let v ← eval scope target
    let i ← eval scope position
    outcome (selectIndex v i)
  | .call name args =>
    match Function.named? name, args with
    | some .roll, [dice] => rollDice (← eval scope dice)
    | some .has, [.member target field] => return hasEntry (← eval scope target) field
    | some .has, [target, key] =>
      let v ← eval scope target
      let k ← eval scope key
      return hasEntry v k.text
    | _, args =>
      let vs ← evalAll scope args
      outcome (callFunction name vs)
  | .method target name args =>
    let v ← eval scope target
    let vs ← evalAll scope args
    outcome (callMethod name v vs)
  | .comprehension target kind var body =>
    let v ← eval scope target
    let items ← outcome (iterated v)
    runComprehension kind (fun item => eval (scope.bind var item) body) [] items
  | .unary op operand =>
    let v ← eval scope operand
    outcome (applyUnary op v)
  | .binary .and lhs rhs =>
    let a ← eval scope lhs
    if ← outcome (truth "&&" a) then
      let b ← eval scope rhs
      return .bool (← outcome (truth "&&" b))
    else return .bool false
  | .binary .or lhs rhs =>
    let a ← eval scope lhs
    if ← outcome (truth "||" a) then return .bool true
    else
      let b ← eval scope rhs
      return .bool (← outcome (truth "||" b))
  | .binary op lhs rhs =>
    let a ← eval scope lhs
    let b ← eval scope rhs
    outcome (applyBinary op a b)
  | .conditional cond yes no =>
    let c ← eval scope cond
    if ← outcome (truth "?:" c) then eval scope yes else eval scope no

/-- Evaluates expressions from left to right. -/
def evalAll (scope : Scope) (es : List Expr) : Eval ρ (List Value) :=
  match es with
  | [] => return []
  | e :: rest => do
    let v ← eval scope e
    let vs ← evalAll scope rest
    return v :: vs

/-- Evaluates the entries of a map from left to right; a later entry replaces an earlier one. -/
def evalEntries (scope : Scope) (entries : List (String × Value)) (es : List (Expr × Expr)) :
    Eval ρ (List (String × Value)) :=
  match es with
  | [] => return entries
  | (key, value) :: rest => do
    let k ← outcome (keyText (← eval scope key))
    let v ← eval scope value
    evalEntries scope (Entries.insert entries k v) rest

end

end GameTable.Formula
