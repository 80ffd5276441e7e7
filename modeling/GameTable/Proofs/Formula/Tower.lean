import Mathlib.Logic.Function.Iterate
import GameTable.Proofs.Formula.Height
import GameTable.Proofs.Formula.Lexing
import GameTable.Proofs.Formula.Taking

/-!
# The tallest formulas

How high a tree gets is bounded by what the parser counts (`grammar_room`), and
this file shows that the bound is reached. A tower has on each floor a run of
selections and then a run of each level of operators, the tightest first, all
of them as long as there are links. Every run takes all that was read before it
as its first operand, so its length is added to the height of the tree; and as a
chain gives its links back when it ends, the next run has all of them again. To
have another floor on top the tower is put into a list, and the floor into a
conditional, which are the two levels that a nesting is good for.

A tower is written with a blank behind each word, so that it is cut into its
tokens word by word (`lexed_spelled`). What the parser reads of it is followed
run by run (`takes_tall`). It is not enough here that all that is derived is
read if there is room for as many links as tokens (`grammar_complete`): a tower
has far more tokens than that.
-/

namespace GameTable.Formula

open Phrase

/-! ## What the towers are made of -/

/-- The words that towers are written with. -/
inductive Word where
  | x | dot | star | plus | lt | andAnd | orOr | lBracket | rBracket | question | colon

namespace Word

def token : Word → Token
  | x => .ident "x"
  | dot => .dot
  | star => .star
  | plus => .plus
  | lt => .lt
  | andAnd => .andAnd
  | orOr => .orOr
  | lBracket => .lBracket
  | rBracket => .rBracket
  | question => .question
  | colon => .colon

/-- The first character of a word. -/
def head : Word → Char
  | x => 'x'
  | dot => '.'
  | star => '*'
  | plus => '+'
  | lt => '<'
  | andAnd => '&'
  | orOr => '|'
  | lBracket => '['
  | rBracket => ']'
  | question => '?'
  | colon => ':'

/-- The characters of a word behind the first. -/
def tail : Word → List Char
  | andAnd => ['&']
  | orOr => ['|']
  | _ => []

end Word

def tokensOf (ws : List Word) : List Token := ws.map Word.token

/-- Words with a blank behind each. -/
def spelled (ws : List Word) : List Char := ws.flatMap fun w => w.head :: w.tail ++ [' ']

/-! ## Words are cut into their tokens -/

theorem Word.lexToken_eq (w : Word) (position : Nat) (rest : List Char) :
    lexToken position w.head (w.tail ++ ' ' :: rest)
      = .ok (w.token, w.tail.length + 1, ' ' :: rest) := by
  cases w with
  | x =>
      have hrest : ∀ d ∈ (' ' :: rest).head?, isNameChar d = false := by
        rintro _ ⟨⟩
        decide +kernel
      exact lexToken_of_isName (by decide +kernel) hrest position
  | _ => rfl

theorem Word.isBlank_head (w : Word) : Text.isBlank w.head = false := by
  cases w <;> decide +kernel

theorem lexed_spelled (ws : List Word) (position : Nat) :
    ∃ tokens, Lexed position (spelled ws) tokens
      ∧ tokens.map (·.token) = tokensOf ws ++ [.eof] := by
  induction ws generalizing position with
  | nil => exact ⟨[⟨.eof, position⟩], .nil, rfl⟩
  | cons w ws ih =>
      have hspelled : spelled (w :: ws) = w.head :: (w.tail ++ ' ' :: spelled ws) := by
        simp [spelled]
      obtain ⟨tokens, hlexed, htokens⟩ := ih (position + (w.tail.length + 1) + 1)
      refine ⟨⟨w.token, position⟩ :: tokens, ?_, ?_⟩
      · rw [hspelled]
        refine .token w.isBlank_head (w.lexToken_eq position (spelled ws)) ?_
        exact .blank (by decide +kernel) hlexed
      · rw [List.map_cons, htokens]
        rfl

/-! ## Towers -/

/-- A word in front of a name, over and over. -/
def run (k : Nat) (w : Word) : List Word := (List.replicate k [w, .x]).flatten

/-- One operator of each level, the loosest first. -/
def operators : List (Word × BinaryOp) :=
  [(.orOr, .or), (.andAnd, .and), (.lt, .lt), (.plus, .add), (.star, .mul)]

/-- Behind some words a run of selections, and then one of each of some operators. -/
def floor (k : Nat) (os : List (Word × BinaryOp)) (ws : List Word) : List Word :=
  os.foldr (fun o ws => ws ++ run k o.1) (ws ++ run k .dot)

theorem floor_cons (k : Nat) (o : Word × BinaryOp) (os : List (Word × BinaryOp)) (ws : List Word) :
    floor k (o :: os) ws = floor k os ws ++ run k o.1 := rfl

/-- So many operators behind an expression. -/
def Expr.chained (k : Nat) (op : BinaryOp) : Expr → Expr :=
  (fun lhs => .binary op lhs (.ident "x"))^[k]

/-- So many selections behind an expression. -/
def Expr.selected (k : Nat) : Expr → Expr := (fun target => .member target "x")^[k]

/-- What is read of a floor. -/
def Expr.floor (k : Nat) (os : List (Word × BinaryOp)) (e : Expr) : Expr :=
  os.foldr (fun o e => e.chained k o.2) (e.selected k)

/-- A tower with runs of `k` links. A floor above the first is built on a list of the tower below,
and closed by a conditional. -/
def tall (k : Nat) : Nat → List Word
  | 0 => floor k operators [.x]
  | floors + 1 =>
    floor k operators (.lBracket :: tall k floors ++ [.rBracket]) ++ [.question, .x, .colon, .x]

/-- What is read of a tower. -/
def Expr.tall (k : Nat) : Nat → Expr
  | 0 => (Expr.ident "x").floor k operators
  | floors + 1 =>
    .conditional ((Expr.list [tall k floors]).floor k operators) (.ident "x") (.ident "x")

/-! ## How tall they are -/

/-- A tree of some height that passes the check. -/
structure Stands (n : Nat) (e : Expr) : Prop where
  height_eq : e.height = n
  check_eq : check e = .ok ()

section Stands

variable {n : Nat} {e : Expr}

theorem stands_name : Stands 1 (.ident "x") := ⟨rfl, rfl⟩

theorem Stands.iterate {f : Expr → Expr} (hf : ∀ n e, Stands n e → Stands (n + 1) (f e))
    (h : Stands n e) (k : Nat) : Stands (n + k) (f^[k] e) := by
  induction k generalizing n e with
  | zero => exact h
  | succ k ih =>
      rw [Function.iterate_succ_apply, Nat.add_succ, ← Nat.succ_add]
      exact ih (hf n e h)

theorem Stands.selected (h : Stands n e) (k : Nat) : Stands (n + k) (e.selected k) := by
  have hlink (n : Nat) (e : Expr) (h : Stands n e) : Stands (n + 1) (.member e "x") :=
    ⟨by rw [Expr.height, h.height_eq], by rw [check, h.check_eq]⟩
  exact h.iterate hlink k

theorem Stands.chained (h : Stands n e) (k : Nat) (op : BinaryOp) :
    Stands (n + k) (e.chained k op) := by
  have hlink (n : Nat) (e : Expr) (h : Stands n e) :
      Stands (n + 1) (.binary op e (.ident "x")) := by
    refine ⟨?_, by rw [check, h.check_eq]; rfl⟩
    rw [Expr.height, stands_name.height_eq, Nat.max_eq_left e.height_pos, h.height_eq]
  exact h.iterate hlink k

theorem Stands.floor (h : Stands n e) (k : Nat) (os : List (Word × BinaryOp)) :
    Stands (n + (os.length + 1) * k) (e.floor k os) := by
  induction os with
  | nil =>
      rw [List.length_nil, Nat.zero_add, Nat.one_mul]
      exact h.selected k
  | cons o os ih =>
      rw [List.length_cons, Nat.succ_mul, ← Nat.add_assoc]
      exact ih.chained k o.2

theorem stands_tall (k floors : Nat) :
    Stands (2 * floors + 1 + (floors + 1) * (6 * k)) (Expr.tall k floors) := by
  induction floors with
  | zero =>
      have h := stands_name.floor k operators
      rwa [Nat.mul_zero, Nat.zero_add, Nat.one_mul]
  | succ floors ih =>
      have hlist : Stands _ (Expr.list [Expr.tall k floors]) :=
        ⟨rfl, by rw [check, checkAll, ih.check_eq]; rfl⟩
      have hfloor := hlist.floor k operators
      have hpos := ((Expr.list [Expr.tall k floors]).floor k operators).height_pos
      refine ⟨?_, ?_⟩
      · rw [Expr.tall, Expr.height, stands_name.height_eq, Nat.max_self, Nat.max_eq_left hpos,
          hfloor.height_eq, Expr.height, Expr.heightItems, Expr.heightItems, ih.height_eq]
        simp only [operators, List.length_cons, List.length_nil, Nat.succ_mul]
        omega
      · rw [Expr.tall, check, hfloor.check_eq]
        rfl

end Stands

/-! ## The parser reads them -/

theorem tokensOf_append (ws us : List Word) : tokensOf (ws ++ us) = tokensOf ws ++ tokensOf us :=
  List.map_append

theorem tokensOf_run_succ (k : Nat) (w : Word) :
    tokensOf (run (k + 1) w) = w.token :: .ident "x" :: tokensOf (run k w) := by
  rw [run, List.replicate_succ, List.flatten_cons, tokensOf_append]
  rfl

/-- What may follow a run and begin one may follow what stands in front of the run. -/
theorem front_run {p : Token → Prop} {w : Word} (hw : p w.token) {rest : List Token}
    (hrest : p (front rest)) (k : Nat) : p (front (tokensOf (run k w) ++ rest)) := by
  cases k with
  | zero => exact hrest
  | succ k =>
      rw [tokensOf_run_succ]
      exact hw

section Chains

variable {op? : Token → Option BinaryOp} {level : Level} {ls : List Level}
  {next : Nat → Parse Expr} {w : Word} {op : BinaryOp} {k links : Nat}

theorem chainRest_run (hop : Finds op? level) (hends : ∀ o ∈ level, Ends ls o.1)
    (hname : ∀ links, Takes (Ends ls) (next links) [.ident "x"] (.ident "x"))
    (hmem : (w.token, op) ∈ level) (hk : k ≤ links) {e : Expr} {rest : List Token}
    (hrest : Ends (level :: ls) (front rest)) {c : Cursor}
    (hc : c.tokens = tokensOf (run k w) ++ rest) :
    Yields True (chainRest op? next links e c) (e.chained k op) rest := by
  induction k generalizing links e c with
  | zero =>
      have hc : c.tokens = rest := hc
      rw [chainRest_of_none (Cursor.peek_of_tokens hc ▸ hop.eq_none hrest), ← hc]
      exact yields_ok ..
  | succ k ih =>
      obtain ⟨links, rfl⟩ : ∃ n, links = n + 1 := ⟨links - 1, by omega⟩
      rw [tokensOf_run_succ, List.cons_append] at hc
      have hpeek : op? c.peek = some op := by
        rw [Cursor.peek_of_cons hc]
        exact (hop _ _).mpr hmem
      have hfront : Ends ls (front (tokensOf (run k w) ++ rest)) :=
        front_run (hends _ hmem) hrest.tighter k
      rw [chainRest_of_some hpeek]
      exact (hname links _ hfront _ (Cursor.advance_of_tokens hc)).bind id fun c' hc' =>
        ih (by omega) hc'

theorem Takes.chained (hop : Finds op? level) (hends : ∀ o ∈ level, Ends ls o.1)
    (hname : ∀ links, Takes (Ends ls) (next links) [.ident "x"] (.ident "x"))
    (hmem : (w.token, op) ∈ level) (hk : k ≤ links) {ts : List Token} {e : Expr}
    (h : Takes (Ends ls) (next links) ts e) :
    Takes (Ends (level :: ls)) (chain op? next links) (ts ++ tokensOf (run k w))
      (e.chained k op) := by
  intro rest hrest c hc
  have hfront : Ends ls (front (tokensOf (run k w) ++ rest)) :=
    front_run (hends _ hmem) hrest.tighter k
  rw [List.append_assoc] at hc
  exact (h _ hfront c hc).bind id fun c' hc' => chainRest_run hop hends hname hmem hk hrest hc'

end Chains

/-- Reads a floor with runs of some operators on some base. The names behind the operators are read
whatever number of links is left. -/
structure Builds (k links : Nat) (os : List (Word × BinaryOp)) (ls : List Level)
    (p : Nat → Parse Expr) (ws : List Word) (e : Expr) : Prop where
  name : ∀ links, Takes (Ends ls) (p links) [.ident "x"] (.ident "x")
  runs : Takes (Ends ls) (p links) (tokensOf (floor k os ws)) (e.floor k os)

theorem Builds.disjunction {k links : Nat} {operand : Nat → Parse Expr} {ws : List Word} {e : Expr}
    (h : Builds k links [] [] operand ws e) (hk : k ≤ links) :
    Builds k links operators levels (disjunction operand) ws e := by
  refine levels_induction (motive := fun ops ls => ∀ {os : List (Word × BinaryOp)},
    List.Forall₂ (fun o level => (o.1.token, o.2) ∈ level) os ls →
    Builds k links os ls (ops.foldr chain operand) ws e) ?_ ?_ ?_
  · intro os hmem
    cases hmem
    exact h
  · intro op? level ops ls hop hends ih os hmem
    cases hmem with
    | cons ho hmem =>
        obtain ⟨hname, hruns⟩ := ih hmem
        refine ⟨fun links => (hname links).chained hop hends hname ho (Nat.zero_le links), ?_⟩
        rw [floor_cons, tokensOf_append]
        exact hruns.chained hop hends hname ho hk
  · repeat' constructor

section Operands

variable {deeper expression : Nat → Parse Expr} {k links : Nat} {ts : List Token} {e : Expr}

theorem front_selections {rest : List Token} (hrest : Ends [] (front rest)) (k : Nat) :
    front (tokensOf (run k .dot) ++ rest) ≠ .lParen :=
  front_run (p := (· ≠ .lParen)) Token.noConfusion (hrest.ne rfl) k

theorem selections_run (hk : k ≤ links) {rest : List Token} (hrest : Ends [] (front rest))
    {c : Cursor} (hc : c.tokens = tokensOf (run k .dot) ++ rest) :
    Yields True (selections expression links e c) (e.selected k) rest := by
  induction k generalizing links e c with
  | zero =>
      have hc : c.tokens = rest := hc
      have hpeek := Cursor.peek_of_tokens hc
      rw [selections_of_ne (hpeek ▸ hrest.ne rfl) (hpeek ▸ hrest.ne rfl), ← hc]
      exact yields_ok ..
  | succ k ih =>
      obtain ⟨links, rfl⟩ : ∃ n, links = n + 1 := ⟨links - 1, by omega⟩
      rw [tokensOf_run_succ, List.cons_append, List.cons_append] at hc
      rw [selections_field (front_selections hrest k) hc]
      exact ih (by omega) (Cursor.advance_of_tokens (Cursor.advance_of_tokens hc))

theorem signed_run (hbegins : Begins (signOp? · = none) ts) (hk : k ≤ links)
    (h : Takes (· ≠ .lParen) (primary expression links) ts e) :
    Takes (Ends []) (signed deeper expression links) (ts ++ tokensOf (run k .dot))
      (e.selected k) := by
  intro rest hrest c hc
  rw [List.append_assoc] at hc
  exact signed_yields hbegins h (front_selections hrest k) hc fun c' hc' =>
    selections_run hk hrest hc'

theorem builds_signed {ws : List Word} (hbegins : Begins (signOp? · = none) (tokensOf ws))
    (hk : k ≤ links) (h : Takes (· ≠ .lParen) (primary expression links) (tokensOf ws) e) :
    Builds k links [] [] (signed deeper expression) ws e where
  name links := signed_run ⟨_, _, rfl, rfl⟩ (Nat.zero_le links) (takes_name "x" links)
  runs := by
    rw [floor, List.foldr_nil, tokensOf_append]
    exact signed_run hbegins hk h

end Operands

/-! ## Whole towers -/

theorem begins_tokensOf (p : Token → Prop) {w : Word} (h : p w.token) (ws : List Word) :
    Begins p (tokensOf (w :: ws)) := ⟨w.token, tokensOf ws, rfl, h⟩

theorem begins_floor {p : Token → Prop} {ws : List Word} (h : Begins p (tokensOf ws)) (k : Nat)
    (os : List (Word × BinaryOp)) : Begins p (tokensOf (floor k os ws)) := by
  induction os with
  | nil =>
      rw [floor, List.foldr_nil, tokensOf_append]
      exact h.append _
  | cons o os ih =>
      rw [floor_cons, tokensOf_append]
      exact ih.append _

theorem begins_tall (k floors : Nat) : Begins (·.delimits = false) (tokensOf (tall k floors)) := by
  cases floors with
  | zero => exact begins_floor (begins_tokensOf (·.delimits = false) rfl []) k operators
  | succ floors =>
      rw [tall, tokensOf_append]
      exact (begins_floor (begins_tokensOf (·.delimits = false) rfl _) k operators).append _

section Towers

variable {k links : Nat}

theorem builds_name (hk : k ≤ links) (depth : Nat) :
    Builds k links [] [] (grammar depth).operand [.x] (.ident "x") := by
  have hbegins := begins_tokensOf (w := .x) (signOp? · = none) rfl []
  cases depth <;> exact builds_signed hbegins hk (takes_name "x" links)

/-- A tower is read where its floors fit into the depth and each of its runs into the links. -/
theorem takes_tall (hk : k ≤ links) {floors depth : Nat} (hfloors : floors ≤ depth) :
    Takes (·.delimits = true) ((grammar (depth + 1)).expression links) (tokensOf (tall k floors))
      (Expr.tall k floors) := by
  induction floors generalizing depth with
  | zero => exact takes_condition ((builds_name hk depth).disjunction hk).runs
  | succ floors ih =>
      obtain ⟨depth, rfl⟩ : ∃ n, depth = n + 1 := ⟨depth - 1, by omega⟩
      have hlist : Takes (· ≠ .lParen) (primary (grammar (depth + 1)).expression links)
          (tokensOf (.lBracket :: tall k floors ++ [.rBracket]))
          (.list [Expr.tall k floors]) := by
        rw [tokensOf_append]
        exact takes_list (.last ⟨begins_tall k floors, ih (Nat.le_of_succ_le_succ hfloors)⟩)
      have hbase : Builds k links [] [] (grammar (depth + 1)).operand
          (.lBracket :: tall k floors ++ [.rBracket]) (.list [Expr.tall k floors]) :=
        builds_signed (begins_tokensOf (signOp? · = none) rfl _) hk hlist
      have hfloor := hbase.disjunction hk
      have hlast : Takes (·.delimits = true) ((grammar (depth + 1)).expression links)
          [.ident "x"] (.ident "x") :=
        takes_condition (((builds_name hk depth).disjunction hk).name links)
      have hwhole := takes_conditional hfloor.runs (hfloor.name links) hlast
      rw [tall, tokensOf_append]
      rwa [List.append_assoc] at hwhole

/-- The text of a tower. -/
def tower (k floors : Nat) : String := .ofList (spelled (tall k floors))

theorem compile_tower {floors : Nat} (hk : k ≤ maxLinks) (hfloors : floors < maxDepth) :
    Program.compile (tower k floors) = .ok ⟨tower k floors, Expr.tall k floors⟩ := by
  obtain ⟨tokens, hlexed, htokens⟩ := lexed_spelled (tall k floors) 0
  have htokenize : tokenize (tower k floors) = .ok tokens := by
    rw [tokenize_eq_ok_iff, tower, String.toList_ofList]
    exact hlexed
  have hdepth : floors ≤ maxDepth - 1 := by omega
  have hparse : parse tokens = .ok (Expr.tall k floors) :=
    parse_of_takes (takes_tall hk hdepth) htokens
  rw [Program.compile, htokenize, ok_bind, hparse, ok_bind, (stands_tall k floors).check_eq]
  rfl

end Towers

end GameTable.Formula

namespace GameTable

open Formula

/-- On a path down the tree of a compiled formula the levels that nest are two for each level of
depth at most, less one, and the links on the way to what was read behind them are as many at most
as may wait. No such bound holds for the other links. The height of the tree stays within both
ceilings together if no path has more links than one more than may wait, and in any case within
the nesting and all links in six chains for each level of depth. This is what one has to reckon
with, since a way down the tree, part by part, may be as long as the tree is high, and since some
formula is as high as that. -/
theorem Program.tree_bounds {source : String} {program : Program}
    (h : compile source = .ok program) :
    program.expr.nesting ≤ 2 * maxDepth - 1
      ∧ program.expr.pending ≤ maxLinks
      ∧ program.expr.height ≤ program.expr.nesting + program.expr.links
      ∧ (program.expr.links ≤ maxLinks + 1 → program.expr.height ≤ 2 * maxDepth + maxLinks)
      ∧ program.expr.height ≤ 2 * maxDepth - 1 + 6 * maxDepth * maxLinks
      ∧ (∀ path, Expr.Descends (program.expr :: path) →
        (program.expr :: path).length ≤ program.expr.height)
      ∧ (∃ path, Expr.Descends (program.expr :: path)
        ∧ (program.expr :: path).length = program.expr.height)
      ∧ ∃ highest, compile highest.source = .ok highest
        ∧ highest.expr.height = 2 * maxDepth - 1 + 6 * maxDepth * maxLinks := by
  have hnesting : program.expr.nesting ≤ 2 * maxDepth - 1 := measure_le_of_compile h ⟨1, 0, 0⟩
  have hpending : program.expr.pending ≤ maxLinks := measure_le_of_compile h ⟨0, 0, 1⟩
  have hheight := program.expr.height_le
  refine ⟨hnesting, hpending, hheight, fun hlinks => ?_, ?_, fun path => Expr.length_le_height,
    program.expr.exists_descends, ?_⟩
  · have hpos : 0 < maxDepth := by decide
    omega
  · rw [Expr.height_eq_measure]
    exact measure_le_of_compile h ⟨1, 1, 1⟩
  · have hfloors : maxDepth - 1 < maxDepth := by decide
    exact ⟨⟨tower maxLinks (maxDepth - 1), Expr.tall maxLinks (maxDepth - 1)⟩,
      compile_tower (Nat.le_refl maxLinks) hfloors,
      (stands_tall maxLinks (maxDepth - 1)).height_eq⟩

/-- The tower of one floor and runs of a single link: each of its seven levels counts. -/
theorem Program.tree_bounds_single_links :
    ∃ program, compile "x . x * x + x < x && x || x " = .ok program
      ∧ program.expr.height = 7
      ∧ program.expr.nesting = 1 ∧ program.expr.links = 6 ∧ program.expr.pending = 1
      ∧ program.expr.height ≤ 2 * maxDepth + maxLinks := by
  have htext : tower 1 0 = "x . x * x + x < x && x || x " := by decide +kernel
  have hcompile : compile (tower 1 0) = .ok ⟨tower 1 0, Expr.tall 1 0⟩ :=
    compile_tower (by decide) (by decide)
  rw [htext] at hcompile
  obtain ⟨-, -, -, hceiling, -⟩ := tree_bounds hcompile
  exact ⟨_, hcompile, rfl, rfl, rfl, rfl, hceiling (by decide)⟩

/-- Six runs of 64 links each: never more than 64 of them wait, and the tree is taller than all of
the nesting and all of the links together. -/
theorem Program.tower_exceeds_ceilings :
    ∃ program, compile (tower 64 0) = .ok program ∧ program.expr.height = 385
      ∧ ¬ program.expr.height ≤ 2 * maxDepth + maxLinks := by
  have hheight := (stands_tall 64 0).height_eq
  refine ⟨_, compile_tower (by decide) (by decide), hheight, ?_⟩
  dsimp only
  rw [hheight]
  decide

end GameTable
