import GameTable.Formula.Lexer
import GameTable.Formula.Expr

/-!
# From tokens to an expression

The grammar has one level per precedence. From the loosest to the tightest: the conditional, `||`,
`&&`, the relations, sums, products, the signs `!` and `-`, and a primary with its selections.
Each binary level is a `chain` over the next, so the operators group to the left.

Two budgets keep the tree small. `depth` bounds how deep expressions and signs nest: a level of
nesting works with the `Grammar` of the level below it, and at depth zero there is none left.
`links` bounds the operators and selections that are waiting for their right-hand side: every
link of a chain hands one link less to what follows it.
-/

namespace GameTable.Formula

/-- The deepest nesting of expressions and signs. -/
def maxDepth : Nat := 64

/-- The most operators and selections waiting at once. -/
def maxLinks : Nat := 256

/-- The tokens still to be read, and the position of the last token of all. -/
structure Cursor where
  rest : List Lexeme
  last : Nat

/-- Parsers read tokens from a cursor and fail with the first error. -/
abbrev Parse := StateT Cursor (Except FormulaError)

namespace Cursor

def ofTokens (tokens : List Lexeme) : Cursor :=
  ⟨tokens, (tokens.getLast?.map (·.position)).getD 0⟩

/-- The next token; behind the last one there is only the end. -/
def peek (c : Cursor) : Token :=
  match c.rest with
  | t :: _ => t.token
  | [] => .eof

/-- Where the next token stands; behind the last one, where that stands. -/
def position (c : Cursor) : Nat :=
  match c.rest with
  | t :: _ => t.position
  | [] => c.last

def advance (c : Cursor) : Cursor := { c with rest := c.rest.tail }

end Cursor

/-! ## Single tokens -/

/-- Fails at the next token. -/
def failHere {α : Type} (fault : Fault) : Parse α := fun c => malformed c.position fault

def tooDeep {α : Type} (limit : Nat) : Parse α := fun _ => .error (.tooDeep limit)

def peek : Parse Token := fun c => .ok (c.peek, c)

/-- Takes the next token. -/
def advance : Parse Token := fun c => .ok (c.peek, c.advance)

/-- Takes the next token if it is the given one. -/
def eat (t : Token) : Parse Bool := fun c =>
  if c.peek = t then .ok (true, c.advance) else .ok (false, c)

def expect (t : Token) (what : String) : Parse Unit := do
  unless ← eat t do failHere (.expected what (← peek))

/-! ## Chains and sequences -/

/-- Operators and right-hand sides after `lhs`, grouped to the left. -/
def chainRest (op? : Token → Option BinaryOp) (next : Nat → Parse Expr) :
    Nat → Expr → Parse Expr
  | links, lhs => do
    match op? (← peek) with
    | none => return lhs
    | some op =>
      let _ ← advance
      match links with
      | 0 => tooDeep maxLinks
      | links + 1 =>
        let rhs ← next links
        chainRest op? next links (.binary op lhs rhs)

/-- A level of binary operators over the next tighter level. -/
def chain (op? : Token → Option BinaryOp) (next : Nat → Parse Expr) (links : Nat) :
    Parse Expr := do
  chainRest op? next links (← next links)

/-- Items separated by commas up to the closing token, which may follow a comma. Every item takes
a token, so `fuel` need not exceed their number. -/
def sequenceRest {α : Type} (item : Parse α) (close : Token) : Nat → List α → Parse (List α)
  | 0, items => return items
  | fuel + 1, items => do
    let items := items ++ [← item]
    if ← eat close then return items
    expect .comma "','"
    if ← eat close then return items
    sequenceRest item close fuel items

/-- A possibly empty sequence after its opening token. -/
def parseSequence {α : Type} (item : Parse α) (close : Token) : Parse (List α) := do
  if ← eat close then return []
  fun c => sequenceRest item close (c.rest.length + 1) [] c

/-! ## The levels of the grammar -/

/-- The call of a method, or a comprehension if the method has the name of one. -/
def methodCall (target : Expr) (name : String) (args : List Expr) : Parse Expr :=
  match Comprehension.named? name with
  | none => return .method target name args
  | some kind =>
    match args with
    | [.ident var, body] => return .comprehension target kind var body
    | [_, _] => failHere (.comprehensionVariable name)
    | _ => failHere (.comprehensionArguments name)

/-- A primary: a literal, a name, a call, a parenthesis, a list or a map. -/
def primary (expression : Nat → Parse Expr) (links : Nat) : Parse Expr := do
  match ← advance with
  | .int n => return .literal (.int n)
  | .double x => return .literal (.double x)
  | .str s => return .literal (.str s)
  | .true => return .literal (.bool true)
  | .false => return .literal (.bool false)
  | .null => return .literal .null
  | .ident name =>
    if ← eat .lParen then
      return .call name (← parseSequence (expression links) .rParen)
    else return .ident name
  | .lParen =>
    let inner ← expression links
    expect .rParen "')'"
    return inner
  | .lBracket => return .list (← parseSequence (expression links) .rBracket)
  | .lBrace =>
    let entry : Parse (Expr × Expr) := do
      let key ← expression links
      expect .colon "':'"
      return (key, ← expression links)
    return .map (← parseSequence entry .rBrace)
  | .eof => failHere .unexpectedEnd
  | other => failHere (.unexpected other)

/-- Selections after a primary: fields, method calls and indexes. -/
def selections (expression : Nat → Parse Expr) : Nat → Expr → Parse Expr
  | links, e => do
    if ← eat .dot then
      match links with
      | 0 => tooDeep maxLinks
      | links + 1 =>
        match ← advance with
        | .ident name =>
          if ← eat .lParen then
            let args ← parseSequence (expression links) .rParen
            selections expression links (← methodCall e name args)
          else selections expression links (.member e name)
        | other => failHere (.expected "field name" other)
    else if ← eat .lBracket then
      match links with
      | 0 => tooDeep maxLinks
      | links + 1 =>
        let index ← expression links
        expect .rBracket "']'"
        selections expression links (.index e index)
    else return e

/-- A primary with its selections. -/
def postfixed (expression : Nat → Parse Expr) (links : Nat) : Parse Expr := do
  selections expression links (← primary expression links)

/-- A sign applied to an operand; a minus on a number is part of the number. -/
def applySign : UnaryOp → Expr → Expr
  | .neg, .literal (.int n) => .literal (.int (-n))
  | .neg, .literal (.double x) => .literal (.double (-x))
  | op, e => .unary op e

def signOp? : Token → Option UnaryOp
  | .bang => some .not
  | .minus => some .neg
  | _ => none

/-- An operand: a sign before an operand of the level below, or a primary with its selections. -/
def signed (deeper expression : Nat → Parse Expr) (links : Nat) : Parse Expr := do
  match signOp? (← peek) with
  | some op =>
    let _ ← advance
    return applySign op (← deeper links)
  | none => postfixed expression links

def productOp? : Token → Option BinaryOp
  | .star => some .mul
  | .slash => some .div
  | .percent => some .rem
  | _ => none

def sumOp? : Token → Option BinaryOp
  | .plus => some .add
  | .minus => some .sub
  | _ => none

def relationOp? : Token → Option BinaryOp
  | .eqEq => some .eq
  | .notEq => some .ne
  | .lt => some .lt
  | .le => some .le
  | .gt => some .gt
  | .ge => some .ge
  | .in => some .in
  | _ => none

def andOp? : Token → Option BinaryOp
  | .andAnd => some .and
  | _ => none

def orOp? : Token → Option BinaryOp
  | .orOr => some .or
  | _ => none

/-- The binary levels over operands, from products up to `||`. -/
def disjunction (operand : Nat → Parse Expr) : Nat → Parse Expr :=
  chain orOp? (chain andOp? (chain relationOp? (chain sumOp? (chain productOp? operand))))

/-- A conditional, or only its condition. The last branch is an expression one level deeper. -/
def conditional (operand deeper : Nat → Parse Expr) (links : Nat) : Parse Expr := do
  let cond ← disjunction operand links
  if ← eat .question then
    let yes ← disjunction operand links
    expect .colon "':'"
    return .conditional cond yes (← deeper links)
  else return cond

/-- The parsers that are available with some depth of nesting left. -/
structure Grammar where
  expression : Nat → Parse Expr
  operand : Nat → Parse Expr

/-- The grammar with `depth` levels of nesting left. -/
def grammar : Nat → Grammar
  | 0 =>
    let refused := fun _ => tooDeep maxDepth
    ⟨refused, signed refused refused⟩
  | depth + 1 =>
    let inner := grammar depth
    let expression := conditional inner.operand inner.expression
    ⟨expression, signed inner.operand expression⟩

/-- Reads a whole formula. -/
def parse (tokens : List Lexeme) : Except FormulaError Expr := do
  let (e, c) ← (grammar maxDepth).expression maxLinks (.ofTokens tokens)
  match c.peek with
  | .eof => .ok e
  | other => malformed c.position (.trailing other)

end GameTable.Formula
