import GameTable.Proofs.Formula.Parsing

/-!
# The parser with counters

The budgets of nesting and of links can also be kept by two counters that change
as the parser goes. Where a level or a link begins one more is counted, and the
one that is too many is refused. Where a phrase ends it has to take off again
what it has counted. That no way through a phrase leaves anything behind is a
property of the whole parser (`Restores`). The parser of `Formula.grammar` hands
to each part what is left for it, and has nothing to restore.

The two are the same parser. A phrase that counts does what the other does with
as much as the counters leave, and has the same counters in the end (`Counts`),
whatever they are (`expression_counts`, `operand_counts`). So the formulas that
are read are the same as well (`parse_eq`).

Expressions recur in one another, here by recursion on a number of levels. The
counters refuse every level that the number could lack, so with as many as there
may be the phrases are made of one another as they would be without the number
(`expression_eq`, `operand_eq`).
-/

namespace GameTable.Formula

/-- The levels of nesting and the links in use. -/
structure Counters where
  depth : Nat
  links : Nat

/-- Parsers that keep the counters. -/
abbrev Counting := StateT Counters Parse

namespace Counting

variable {α β : Type}

/-! ## Phrases that count -/

/-- Counts one more level of nesting. -/
def enter : Counting Unit := do
  modify fun k => { k with depth := k.depth + 1 }
  if maxDepth < (← get).depth then tooDeep maxDepth

def leave : Counting Unit := modify fun k => { k with depth := k.depth - 1 }

/-- Counts one more link. -/
def link : Counting Unit := do
  modify fun k => { k with links := k.links + 1 }
  if maxLinks < (← get).links then tooDeep maxLinks

/-- Takes off the links of a chain. -/
def release (chain : Nat) : Counting Unit := modify fun k => { k with links := k.links - chain }

/-- A phrase one level deeper. -/
def nested (x : Counting α) : Counting α := do
  enter
  let a ← x
  leave
  return a

/-- Operators and right-hand sides after `lhs`, behind `chain` others. Every turn takes a link, so
`turns` need not exceed their number. -/
def chainRest (op? : Token → Option BinaryOp) (next : Counting Expr) :
    Nat → Nat → Expr → Counting Expr
  | turns, chain, lhs => do
    match op? (← peek) with
    | none =>
      release chain
      return lhs
    | some op =>
      let _ ← advance
      link
      match turns with
      | 0 => tooDeep maxLinks
      | turns + 1 =>
        let rhs ← next
        chainRest op? next turns (chain + 1) (.binary op lhs rhs)

def chain (op? : Token → Option BinaryOp) (next : Counting Expr) : Counting Expr := do
  chainRest op? next maxLinks 0 (← next)

def sequenceRest (item : Counting α) (close : Token) : Nat → List α → Counting (List α)
  | 0, items => return items
  | fuel + 1, items => do
    let items := items ++ [← item]
    if ← eat close then return items
    expect .comma "','"
    if ← eat close then return items
    sequenceRest item close fuel items

def parseSequence (item : Counting α) (close : Token) : Counting (List α) := do
  if ← eat close then return []
  fun k c => sequenceRest item close (c.rest.length + 1) [] k c

def entryOf (expression : Counting Expr) : Counting (Expr × Expr) := do
  let key ← expression
  expect .colon "':'"
  return (key, ← expression)

def primary (expression : Counting Expr) : Counting Expr := do
  match ← advance with
  | .int n => return .literal (.int n)
  | .double x => return .literal (.double x)
  | .str s => return .literal (.str s)
  | .true => return .literal (.bool true)
  | .false => return .literal (.bool false)
  | .null => return .literal .null
  | .ident name =>
    if ← eat .lParen then
      return .call name (← parseSequence expression .rParen)
    else return .ident name
  | .lParen =>
    let inner ← expression
    expect .rParen "')'"
    return inner
  | .lBracket => return .list (← parseSequence expression .rBracket)
  | .lBrace => return .map (← parseSequence (entryOf expression) .rBrace)
  | .eof => failHere .unexpectedEnd
  | other => failHere (.unexpected other)

/-- Selections after a primary, behind `chain` others; `turns` is as in `chainRest`. -/
def selections (expression : Counting Expr) : Nat → Nat → Expr → Counting Expr
  | turns, chain, e => do
    if ← eat .dot then
      link
      match turns with
      | 0 => tooDeep maxLinks
      | turns + 1 =>
        match ← advance with
        | .ident name =>
          if ← eat .lParen then
            let args ← parseSequence expression .rParen
            selections expression turns (chain + 1) (← methodCall e name args)
          else selections expression turns (chain + 1) (.member e name)
        | other => failHere (.expected "field name" other)
    else if ← eat .lBracket then
      link
      match turns with
      | 0 => tooDeep maxLinks
      | turns + 1 =>
        let index ← expression
        expect .rBracket "']'"
        selections expression turns (chain + 1) (.index e index)
    else
      release chain
      return e

def postfixed (expression : Counting Expr) : Counting Expr := do
  selections expression maxLinks 0 (← primary expression)

def signed (operand expression : Counting Expr) : Counting Expr := do
  match signOp? (← peek) with
  | some op =>
    let _ ← advance
    return applySign op (← nested operand)
  | none => postfixed expression

def disjunction (operand : Counting Expr) : Counting Expr :=
  chain orOp? (chain andOp? (chain relationOp? (chain sumOp? (chain productOp? operand))))

def conditional (operand expression : Counting Expr) : Counting Expr := do
  let cond ← disjunction operand
  if ← eat .question then
    let yes ← disjunction operand
    expect .colon "':'"
    return .conditional cond yes (← expression)
  else return cond

/-- The parsers that recur in one another. -/
structure Grammar where
  expression : Counting Expr
  operand : Counting Expr

/-- Expressions and operands with some levels of nesting in them. -/
def grammar : Nat → Grammar
  | 0 =>
    let refused := nested (tooDeep maxDepth)
    ⟨refused, signed (tooDeep maxDepth) refused⟩
  | levels + 1 =>
    let inner := grammar levels
    let expression := nested (conditional inner.operand inner.expression)
    ⟨expression, signed inner.operand expression⟩

def expression : Counting Expr := (grammar maxDepth).expression

def operand : Counting Expr := (grammar maxDepth).operand

/-- Reads a whole formula. -/
def parse (tokens : List Lexeme) : Except FormulaError Expr := do
  let ((e, _), c) ← expression ⟨0, 0⟩ (.ofTokens tokens)
  match c.peek with
  | .eof => .ok e
  | other => malformed c.position (.trailing other)

/-! ## What a phrase does with the counters -/

/-- From some counters it does what a parser without counters does, and then has others. -/
def Does (k k' : Counters) (x : Counting α) (p : Parse α) : Prop :=
  x k = p >>= fun a => pure (a, k')

/-- Whatever is read, the counters are in the end what they were. -/
def Restores (x : Counting α) : Prop :=
  ∀ k c a k' c', x k c = .ok ((a, k'), c') → k' = k

section Steps

variable {k k₁ k' : Counters} {x : Counting α} {p : Parse α}

theorem does_pure (k : Counters) (a : α) : Does k k (pure a) (pure a) := rfl

theorem does_lift (k : Counters) (p : Parse α) : Does k k (liftM p) p := rfl

theorem does_failHere (k k' : Counters) (fault : Fault) :
    Does k k' (liftM (failHere fault : Parse α)) (failHere fault) := rfl

theorem Does.bind {f : α → Counting β} {q : α → Parse β} (h : Does k k₁ x p)
    (hnext : ∀ a, Does k₁ k' (f a) (q a)) : Does k k' (x >>= f) (p >>= q) := by
  change (x k >>= fun r => f r.1 r.2) = _
  rw [h, bind_assoc, bind_assoc]
  simp only [pure_bind, fun a => show f a k₁ = _ from hnext a]

theorem does_release (k : Counters) (chain : Nat) (a : α) :
    Does k { k with links := k.links - chain } (release chain >>= fun _ => pure a) (pure a) := rfl

end Steps

/-- At some depth of nesting it does what a parser does with as many links as are left. -/
def Counts (depth : Nat) (x : Counting α) (p : Nat → Parse α) : Prop :=
  ∀ links, Does ⟨depth, links⟩ ⟨depth, links⟩ x (p (maxLinks - links))

theorem Counts.restores {x : Counting α} {p : Nat → Nat → Parse α}
    (h : ∀ depth, Counts depth x (p depth)) : Restores x := by
  intro k c a k' c' hread
  rw [h k.depth k.links] at hread
  obtain ⟨b, mid, -, hpure⟩ := Parse.bind_eq_ok hread
  cases hpure
  rfl

section Limits

variable {depth links : Nat}

/-- A link is refused if none is left, and else there is one less. -/
theorem does_link {k' : Counters} {f : Unit → Counting α} {q : Nat → Parse α}
    (hnext : links + 1 ≤ maxLinks →
      Does ⟨depth, links + 1⟩ k' (f ()) (q (maxLinks - (links + 1)))) :
    Does ⟨depth, links⟩ k' (link >>= f) (match maxLinks - links with
      | 0 => tooDeep maxLinks
      | links + 1 => q links) := by
  have hlink : (link >>= f) ⟨depth, links⟩
      = (if maxLinks < links + 1 then tooDeep maxLinks else f () ⟨depth, links + 1⟩) := by
    change ((if maxLinks < links + 1 then liftM (tooDeep maxLinks : Parse Unit)
      else pure () : Counting Unit) >>= f) ⟨depth, links + 1⟩ = _
    split <;> rfl
  rw [Does, hlink]
  by_cases hover : maxLinks < links + 1
  · have hleft : maxLinks - links = 0 := by omega
    rw [if_pos hover, hleft]
    rfl
  · have hleft : maxLinks - links = maxLinks - (links + 1) + 1 := by omega
    rw [if_neg hover, hleft]
    exact hnext (Nat.le_of_not_lt hover)

/-- A level is refused if none is left, and else there is one less in it. -/
theorem counts_nested {x : Counting α} {q : Nat → Nat → Parse α}
    (hx : depth + 1 ≤ maxDepth → Counts (depth + 1) x (q (maxDepth - (depth + 1)))) :
    Counts depth (nested x) fun links => match maxDepth - depth with
      | 0 => tooDeep maxDepth
      | depth + 1 => q depth links := by
  intro links
  have hnested : nested x ⟨depth, links⟩ = (if maxDepth < depth + 1 then tooDeep maxDepth
      else (x >>= fun a => leave >>= fun _ => pure a) ⟨depth + 1, links⟩) := by
    change ((if maxDepth < depth + 1 then liftM (tooDeep maxDepth : Parse Unit)
      else pure () : Counting Unit) >>= fun _ => _) ⟨depth + 1, links⟩ = _
    split <;> rfl
  rw [Does, hnested]
  by_cases hover : maxDepth < depth + 1
  · have hleft : maxDepth - depth = 0 := by omega
    rw [if_pos hover, hleft]
    rfl
  · have hleft : maxDepth - depth = maxDepth - (depth + 1) + 1 := by omega
    rw [if_neg hover, hleft]
    have hleave (a : α) : Does ⟨depth + 1, links⟩ ⟨depth, links⟩ (leave >>= fun _ => pure a)
        (pure a) := rfl
    exact ((hx (Nat.le_of_not_lt hover) links).bind hleave).trans (by rw [bind_pure])

end Limits

/-! ## Phrase by phrase -/

section Chains

variable {depth links : Nat} {next operand : Counting Expr} {p q : Nat → Parse Expr}

/-- With the links behind it a chain takes off those in front as well. -/
theorem does_chainRest {op? : Token → Option BinaryOp} (hnext : Counts depth next q) {turns : Nat}
    (chain : Nat) (hturns : maxLinks ≤ turns + links) (lhs : Expr) :
    Does ⟨depth, links⟩ ⟨depth, links - chain⟩ (chainRest op? next turns chain lhs)
      (Formula.chainRest op? q (maxLinks - links) lhs) := by
  induction turns generalizing links chain lhs with
  | zero =>
      rw [chainRest, Formula.chainRest.eq_def]
      refine (does_lift _ peek).bind fun t => ?_
      cases op? t with
      | none => exact does_release _ chain lhs
      | some op =>
          exact (does_lift _ advance).bind fun _ => does_link fun hlink => absurd hlink (by omega)
  | succ turns ih =>
      rw [chainRest, Formula.chainRest.eq_def]
      refine (does_lift _ peek).bind fun t => ?_
      cases op? t with
      | none => exact does_release _ chain lhs
      | some op =>
          refine (does_lift _ advance).bind fun _ => does_link fun _ => (hnext _).bind fun rhs => ?_
          have hrest := @ih (links + 1) (chain + 1) (by omega) (.binary op lhs rhs)
          rwa [Nat.add_sub_add_right] at hrest

theorem counts_chain (op? : Token → Option BinaryOp) (hnext : Counts depth next q) :
    Counts depth (chain op? next) (Formula.chain op? q) :=
  fun links => (hnext links).bind fun lhs =>
    does_chainRest hnext 0 (Nat.le_add_right maxLinks links) lhs

theorem counts_chains (hoperand : Counts depth operand p)
    (ops : List (Token → Option BinaryOp)) :
    Counts depth (ops.foldr chain operand) (ops.foldr Formula.chain p) := by
  induction ops with
  | nil => exact hoperand
  | cons op? ops ih => exact counts_chain op? ih

theorem counts_conditional {expression : Counting Expr} (hoperand : Counts depth operand p)
    (hexpression : Counts depth expression q) :
    Counts depth (conditional operand expression) (Formula.conditional p q) := by
  have hdisjunction := counts_chains hoperand readers
  intro links
  refine (hdisjunction links).bind fun cond => (does_lift _ (eat .question)).bind fun asked => ?_
  cases asked with
  | true =>
      exact (hdisjunction links).bind fun _ => (does_lift _ (expect .colon _)).bind fun _ =>
        (hexpression links).bind fun _ => does_pure ..
  | false => exact does_pure ..

end Chains

section Sequences

variable {k : Counters} {item : Counting α} {p : Parse α} (h : Does k k item p) (close : Token)

include h

theorem does_sequenceRest (fuel : Nat) (read : List α) :
    Does k k (sequenceRest item close fuel read) (Formula.sequenceRest p close fuel read) := by
  induction fuel generalizing read with
  | zero => exact does_pure k read
  | succ fuel ih =>
      rw [sequenceRest, Formula.sequenceRest]
      refine h.bind fun a => (does_lift k (eat close)).bind fun closed => ?_
      cases closed with
      | true => exact does_pure ..
      | false =>
          refine (does_lift k (expect .comma _)).bind fun _ =>
            (does_lift k (eat close)).bind fun closed => ?_
          cases closed with
          | true => exact does_pure ..
          | false => exact ih _

theorem does_parseSequence :
    Does k k (parseSequence item close) (Formula.parseSequence p close) := by
  refine (does_lift k (eat close)).bind fun closed => ?_
  cases closed with
  | true => exact does_pure ..
  | false =>
      funext c
      exact congrFun (does_sequenceRest h close (c.rest.length + 1) []) c

end Sequences

section Operands

variable {depth links : Nat} {expression : Counting Expr} {q : Nat → Parse Expr}
  (h : Counts depth expression q)

include h

theorem counts_entryOf : Counts depth (entryOf expression) (Formula.entryOf q) :=
  fun links => (h links).bind fun _ => (does_lift _ (expect .colon _)).bind fun _ =>
    (h links).bind fun _ => does_pure ..

theorem counts_primary : Counts depth (primary expression) (Formula.primary q) := by
  intro links
  refine (does_lift _ advance).bind fun t => ?_
  cases t with
  | int | double | str | true | false | null => exact does_pure ..
  | ident name =>
      refine (does_lift _ (eat .lParen)).bind fun called => ?_
      cases called with
      | true => exact (does_parseSequence (h links) .rParen).bind fun _ => does_pure ..
      | false => exact does_pure ..
  | lParen =>
      exact (h links).bind fun _ => (does_lift _ (expect .rParen _)).bind fun _ => does_pure ..
  | lBracket => exact (does_parseSequence (h links) .rBracket).bind fun _ => does_pure ..
  | lBrace =>
      exact (does_parseSequence (counts_entryOf h links) .rBrace).bind fun _ => does_pure ..
  | _ => exact does_failHere ..

theorem does_selections {turns : Nat} (chain : Nat) (hturns : maxLinks ≤ turns + links) (e : Expr) :
    Does ⟨depth, links⟩ ⟨depth, links - chain⟩ (selections expression turns chain e)
      (Formula.selections q (maxLinks - links) e) := by
  induction turns generalizing links chain e with
  | zero =>
      rw [selections, Formula.selections.eq_def]
      refine (does_lift _ (eat .dot)).bind fun dot => ?_
      cases dot with
      | true => exact does_link fun hlink => absurd hlink (by omega)
      | false =>
          refine (does_lift _ (eat .lBracket)).bind fun bracket => ?_
          cases bracket with
          | true => exact does_link fun hlink => absurd hlink (by omega)
          | false => exact does_release _ chain e
  | succ turns ih =>
      have hrest (e : Expr) : Does ⟨depth, links + 1⟩ ⟨depth, links - chain⟩
          (selections expression turns (chain + 1) e)
          (Formula.selections q (maxLinks - (links + 1)) e) := by
        have hrest := @ih (links + 1) (chain + 1) (by omega) e
        rwa [Nat.add_sub_add_right] at hrest
      rw [selections, Formula.selections.eq_def]
      refine (does_lift _ (eat .dot)).bind fun dot => ?_
      cases dot with
      | true =>
          refine does_link fun _ => (does_lift _ advance).bind fun t => ?_
          cases t with
          | ident name =>
              refine (does_lift _ (eat .lParen)).bind fun called => ?_
              cases called with
              | true =>
                  exact (does_parseSequence (h _) .rParen).bind fun args =>
                    (does_lift _ (methodCall e name args)).bind fun _ => hrest _
              | false => exact hrest _
          | _ => exact does_failHere ..
      | false =>
          refine (does_lift _ (eat .lBracket)).bind fun bracket => ?_
          cases bracket with
          | true =>
              exact does_link fun _ => (h _).bind fun position =>
                (does_lift _ (expect .rBracket _)).bind fun _ => hrest _
          | false => exact does_release _ chain e

theorem counts_postfixed : Counts depth (postfixed expression) (Formula.postfixed q) :=
  fun links => (counts_primary h links).bind fun e =>
    does_selections h 0 (Nat.le_add_right maxLinks links) e

theorem counts_signed {operand : Counting Expr} {deeper : Nat → Parse Expr}
    (hdeeper : Counts depth (nested operand) deeper) :
    Counts depth (signed operand expression) (Formula.signed deeper q) := by
  intro links
  refine (does_lift _ peek).bind fun t => ?_
  cases signOp? t with
  | some op =>
      exact (does_lift _ advance).bind fun _ => (hdeeper links).bind fun _ => does_pure ..
  | none => exact counts_postfixed h links

end Operands

/-! ## The parser as a whole -/

/-- With levels enough, a phrase is read with as much as the counters leave. -/
theorem grammar_counts {levels depth : Nat} (hlevels : maxDepth ≤ levels + depth) :
    Counts depth (grammar levels).expression (Formula.grammar (maxDepth - depth)).expression
      ∧ Counts depth (grammar levels).operand (Formula.grammar (maxDepth - depth)).operand := by
  have hexpression (depth : Nat) : (Formula.grammar depth).expression = fun links =>
      match depth with
      | 0 => tooDeep maxDepth
      | depth + 1 => Formula.conditional (Formula.grammar depth).operand
        (Formula.grammar depth).expression links := by
    cases depth <;> rfl
  have hoperand (depth : Nat) : (Formula.grammar depth).operand = Formula.signed (fun links =>
      match depth with
      | 0 => tooDeep maxDepth
      | depth + 1 => (Formula.grammar depth).operand links) (Formula.grammar depth).expression := by
    cases depth <;> rfl
  induction levels generalizing depth with
  | zero =>
      -- Where there are no more levels here, the counters have none left either.
      have hover : ¬ depth + 1 ≤ maxDepth := by omega
      have hrefused : Counts depth (grammar 0).expression
          (Formula.grammar (maxDepth - depth)).expression := by
        rw [hexpression]
        exact counts_nested fun hdepth => absurd hdepth hover
      refine ⟨hrefused, ?_⟩
      rw [hoperand]
      exact counts_signed hrefused (counts_nested fun hdepth => absurd hdepth hover)
  | succ levels ih =>
      have hwhole : Counts depth (grammar (levels + 1)).expression
          (Formula.grammar (maxDepth - depth)).expression := by
        rw [hexpression]
        refine counts_nested fun hdepth => ?_
        obtain ⟨hexpression, hoperand⟩ := @ih (depth + 1) (by omega)
        exact counts_conditional hoperand hexpression
      refine ⟨hwhole, ?_⟩
      rw [hoperand]
      exact counts_signed hwhole (counts_nested fun hdepth => (@ih (depth + 1) (by omega)).2)

theorem expression_counts (depth : Nat) :
    Counts depth expression (Formula.grammar (maxDepth - depth)).expression :=
  (grammar_counts (Nat.le_add_right maxDepth depth)).1

theorem operand_counts (depth : Nat) :
    Counts depth operand (Formula.grammar (maxDepth - depth)).operand :=
  (grammar_counts (Nat.le_add_right maxDepth depth)).2

theorem expression_eq : expression = nested (conditional operand expression) := by
  funext k
  have hmore := (@grammar_counts (maxDepth + 1) k.depth (by omega)).1
  exact (expression_counts k.depth k.links).trans (hmore k.links).symm

theorem operand_eq : operand = signed operand expression := by
  have hexpression : (grammar (maxDepth + 1)).expression = expression := expression_eq.symm
  funext k
  have hmore := (@grammar_counts (maxDepth + 1) k.depth (by omega)).2
  refine ((operand_counts k.depth k.links).trans (hmore k.links).symm).trans ?_
  change signed operand (grammar (maxDepth + 1)).expression k = _
  rw [hexpression]

theorem parse_eq (tokens : List Lexeme) : parse tokens = Formula.parse tokens := by
  rw [parse, Formula.parse, expression_counts 0 0]
  change (((Formula.grammar maxDepth).expression maxLinks (.ofTokens tokens)
    >>= fun r => pure ((r.1, _), r.2)) >>= _) = _
  rw [bind_assoc]
  rfl

/-! ## What is restored -/

theorem restores_expression : Restores expression := Counts.restores expression_counts

theorem restores_chains (ops : List (Token → Option BinaryOp)) :
    Restores (ops.foldr chain operand) :=
  Counts.restores fun depth => counts_chains (operand_counts depth) ops

theorem restores_postfixed : Restores (postfixed expression) :=
  Counts.restores fun depth => counts_postfixed (expression_counts depth)

theorem restores_primary : Restores (primary expression) :=
  Counts.restores fun depth => counts_primary (expression_counts depth)

theorem restores_items (close : Token) : Restores (parseSequence expression close) :=
  Counts.restores (p := fun depth links =>
      Formula.parseSequence ((Formula.grammar (maxDepth - depth)).expression links) close)
    fun depth links => does_parseSequence (expression_counts depth links) close

end Counting

end GameTable.Formula
