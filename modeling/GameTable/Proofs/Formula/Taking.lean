import GameTable.Proofs.Formula.Completeness

/-!
# Phrases that are read wherever they stand

Some phrases are read whatever stands behind them, as long as it may stand there
(`Takes`). This is not so of all phrases that are short enough only: how much
room a phrase takes depends on its tree, and not on the number of its tokens
alone. What is made of such phrases is read wherever it stands, if the levels of
nesting and the links are there: a list of them (`takes_list`), and whatever
leads from a primary to a whole formula (`takes_operand`, `takes_disjunction`,
`takes_condition`, `parse_of_takes`).
-/

namespace GameTable.Formula

open Phrase

/-- Reads these tokens to this tree, in front of any token that may follow. -/
def Takes (follows : Token → Prop) (p : Parse Expr) (ts : List Token) (e : Expr) : Prop :=
  ∀ rest, follows (front rest) → ∀ c : Cursor, c.tokens = ts ++ rest → Yields True (p c) e rest

/-- Begins as an item of a sequence does, and is read wherever an item may stand. -/
structure IsItem (p : Parse Expr) (ts : List Token) (e : Expr) : Prop where
  begins : Begins (·.delimits = false) ts
  takes : Takes (·.delimits = true) p ts e

/-! ## Operands -/

section Operands

variable {deeper expression : Nat → Parse Expr} {links : Nat} {ts : List Token} {e : Expr}

theorem takes_name (name : String) (links : Nat) :
    Takes (· ≠ .lParen) (primary expression links) [.ident name] (.ident name) :=
  fun _ hrest _ hc => primary_name hrest hc ..

theorem takes_list {items : List Expr} (h : Separated (IsItem (expression links)) ts items) :
    Takes (· ≠ .lParen) (primary expression links) (.lBracket :: ts ++ [.rBracket])
      (.list items) := by
  intro rest _ c hc
  have hopen : c.tokens = .lBracket :: (ts ++ .rBracket :: rest) := by simpa using hc
  -- Only items that are read in any case stand here, so there is as much room as they need.
  have hitem : Complete (IsItem (expression links)) (·.delimits = true) ts.length
      (expression links) :=
    fun us item h rest hrest c hc => (h.takes rest hrest c hc).mono fun _ => trivial
  have hitems := parseSequence_yields .rBracket hitem (fun _ _ => IsItem.begins) rfl nofun h
    (Cursor.advance_of_tokens hopen)
  exact primary_list hopen (hitems.mono fun _ => Nat.le_refl _)

/-- A primary without a sign is read, and then its selections. -/
theorem signed_yields (hbegins : Begins (signOp? · = none) ts)
    (h : Takes (· ≠ .lParen) (primary expression links) ts e) {rest final : List Token}
    (hrest : front rest ≠ .lParen) {c : Cursor} (hc : c.tokens = ts ++ rest) {e' : Expr}
    (hselections : ∀ c' : Cursor, c'.tokens = rest →
      Yields True (selections expression links e c') e' final) :
    Yields True (signed deeper expression links c) e' final := by
  obtain ⟨t, us, rfl, ht⟩ := hbegins
  have hpeek : signOp? c.peek = none := by
    rw [Cursor.peek_of_cons hc]
    exact ht
  rw [signed_of_none hpeek]
  exact (h rest hrest c hc).bind id hselections

theorem takes_operand (hbegins : Begins (signOp? · = none) ts)
    (h : Takes (· ≠ .lParen) (primary expression links) ts e) :
    Takes (Ends []) (signed deeper expression links) ts e := by
  intro rest hrest c hc
  refine signed_yields hbegins h (hrest.ne rfl) hc fun c' hc' => ?_
  have hpeek := Cursor.peek_of_tokens hc'
  rw [selections_of_ne (hpeek ▸ hrest.ne rfl) (hpeek ▸ hrest.ne rfl), ← hc']
  exact yields_ok ..

end Operands

/-! ## Expressions -/

section Expressions

variable {operand deeper : Nat → Parse Expr} {links : Nat} {ts us vs : List Token}
  {e cond yes no : Expr}

/-- An operand without an operator behind it is a chain of all levels. -/
theorem takes_disjunction (h : Takes (Ends []) (operand links) ts e) :
    Takes (Ends levels) (disjunction operand links) ts e := by
  refine levels_induction (motive := fun ops ls =>
    Takes (Ends ls) (ops.foldr chain operand links) ts e) h fun hop _ ih => ?_
  intro rest hrest c hc
  refine (ih rest hrest.tighter c hc).bind id fun c' hc' => ?_
  rw [chainRest_of_none (Cursor.peek_of_tokens hc' ▸ hop.eq_none hrest), ← hc']
  exact yields_ok ..

theorem takes_condition (h : Takes (Ends levels) (disjunction operand links) ts cond) :
    Takes (·.delimits = true) (conditional operand deeper links) ts cond :=
  fun rest hrest c hc => conditional_plain hrest (h rest (ends_of_delimits hrest) c hc)

theorem takes_conditional (hcond : Takes (Ends levels) (disjunction operand links) ts cond)
    (hyes : Takes (Ends levels) (disjunction operand links) us yes)
    (hno : Takes (·.delimits = true) (deeper links) vs no) :
    Takes (·.delimits = true) (conditional operand deeper links)
      (ts ++ .question :: us ++ .colon :: vs) (.conditional cond yes no) := by
  intro rest hrest c hc
  have hends : Ends levels .question := ⟨rfl, by decide⟩
  have htokens : c.tokens = ts ++ .question :: (us ++ .colon :: (vs ++ rest)) := by
    simpa using hc
  refine conditional_whole (hcond (.question :: (us ++ .colon :: (vs ++ rest))) hends c htokens)
    (fun c' hc' => ?_) fun c' (hc' : c'.tokens = vs ++ rest) => ?_
  · exact hyes (.colon :: (vs ++ rest)) (ends_of_delimits rfl) c' hc'
  · exact hno rest hrest c' hc'

end Expressions

/-! ## Formulas -/

/-- What is read wherever it stands is read as a formula. -/
theorem parse_of_takes {ts : List Token} {e : Expr}
    (h : Takes (·.delimits = true) ((grammar maxDepth).expression maxLinks) ts e)
    {tokens : List Lexeme} (htokens : tokens.map (·.token) = ts ++ [.eof]) :
    parse tokens = .ok e := by
  obtain ⟨c, hread, hc⟩ | ⟨hroom, -⟩ := h [.eof] rfl (.ofTokens tokens) htokens
  · rw [parse, hread, ok_bind]
    dsimp only
    rw [Cursor.peek_of_cons hc]
  · exact absurd trivial hroom

end GameTable.Formula
