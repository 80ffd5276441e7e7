import Mathlib.Data.List.Forall2
import GameTable.Proofs.Formula.Grammar
import GameTable.Proofs.Result

/-!
# How tokens are read

A parser is followed from token to token. A cursor stands for the tokens that
are still to be read (`Cursor.tokens`), and each way of taking one is an
equation between parsers in a row. For the loops there is one equation for each
way in which a turn may go: it stops, it is refused because no link is left, or
it takes an operator or a selection and goes on.

The readers of operators are the parser's own, one for each level. They find
the operators that the grammar gives to the level (`finds_readers`).
-/

namespace GameTable.Formula

open Phrase

variable {α β : Type}

/-- The first of some tokens; behind the last there is only the end. -/
abbrev front (ts : List Token) : Token := ts.headD .eof

namespace Cursor

/-- The tokens still to be read. -/
def tokens (c : Cursor) : List Token := c.rest.map (·.token)

theorem peek_eq (c : Cursor) : c.peek = front c.tokens := by
  rw [peek, tokens]
  cases c.rest with
  | nil => rfl
  | cons t rest => rfl

theorem tokens_advance (c : Cursor) : c.advance.tokens = c.tokens.tail := by
  rw [tokens, advance, tokens, List.map_tail]

/-- Before the end the next token is taken from the tokens. -/
theorem tokens_eq_cons {c : Cursor} (h : c.peek ≠ .eof) :
    c.tokens = c.peek :: c.advance.tokens := by
  rw [peek_eq, tokens_advance] at *
  cases hc : c.tokens with
  | nil =>
      rw [hc] at h
      exact absurd rfl h
  | cons t rest => rfl

theorem peek_of_tokens {c : Cursor} {ts : List Token} (h : c.tokens = ts) :
    c.peek = front ts := by
  rw [c.peek_eq, h]

theorem peek_of_cons {c : Cursor} {t : Token} {ts : List Token}
    (h : c.tokens = t :: ts) : c.peek = t := peek_of_tokens h

theorem advance_of_tokens {c : Cursor} {t : Token} {ts : List Token}
    (h : c.tokens = t :: ts) : c.advance.tokens = ts := by
  rw [c.tokens_advance, h]
  rfl

end Cursor

/-! ## Steps in a row -/

section Steps

variable {c c' : Cursor} {b : β}

theorem Parse.bind_eq_ok {p : Parse α} {next : α → Parse β}
    (h : (p >>= next) c = .ok (b, c')) :
    ∃ a mid, p c = .ok (a, mid) ∧ next a mid = .ok (b, c') := by
  change (p c >>= fun r => next r.1 r.2) = .ok (b, c') at h
  obtain ⟨⟨a, mid⟩, hp, hnext⟩ := bind_eq_ok_iff.mp h
  exact ⟨a, mid, hp, hnext⟩

theorem Parse.bind_of_ok {p : Parse α} {a : α} {mid : Cursor} (h : p c = .ok (a, mid))
    (next : α → Parse β) : (p >>= next) c = next a mid := by
  change (p c >>= fun r => next r.1 r.2) = next a mid
  rw [h]
  rfl

theorem Parse.peek_bind (next : Token → Parse β) (c : Cursor) :
    (peek >>= next) c = next c.peek c := rfl

theorem Parse.advance_bind (next : Token → Parse β) (c : Cursor) :
    (advance >>= next) c = next c.peek c.advance := rfl

theorem Parse.eat_bind_of_eq {t : Token} (h : c.peek = t) (next : Bool → Parse β) :
    (eat t >>= next) c = next true c.advance := by
  change (eat t c >>= fun r => next r.1 r.2) = _
  rw [eat, if_pos h]
  rfl

theorem Parse.eat_bind_of_ne {t : Token} (h : c.peek ≠ t) (next : Bool → Parse β) :
    (eat t >>= next) c = next false c := by
  change (eat t c >>= fun r => next r.1 r.2) = _
  rw [eat, if_neg h]
  rfl

theorem Parse.eat_bind_eq_ok {t : Token} (ht : t ≠ .eof) {next : Bool → Parse β}
    (h : (eat t >>= next) c = .ok (b, c')) :
    (∃ mid : Cursor, c.tokens = t :: mid.tokens ∧ next true mid = .ok (b, c'))
      ∨ next false c = .ok (b, c') := by
  by_cases hpeek : c.peek = t
  · rw [eat_bind_of_eq hpeek] at h
    refine .inl ⟨c.advance, ?_, h⟩
    rw [← hpeek] at ht ⊢
    exact Cursor.tokens_eq_cons ht
  · rw [eat_bind_of_ne hpeek] at h
    exact .inr h

theorem Parse.expect_bind_of_eq {t : Token} (h : c.peek = t) (what : String)
    (next : Unit → Parse β) : (expect t what >>= next) c = next () c.advance := by
  have hexpect : expect t what c = .ok ((), c.advance) := by
    rw [expect, eat_bind_of_eq h]
    rfl
  change (expect t what c >>= fun r => next r.1 r.2) = _
  rw [hexpect]
  rfl

theorem Parse.expect_bind_eq_ok {t : Token} (ht : t ≠ .eof) {what : String}
    {next : Unit → Parse β} (h : (expect t what >>= next) c = .ok (b, c')) :
    ∃ mid : Cursor, c.tokens = t :: mid.tokens ∧ next () mid = .ok (b, c') := by
  obtain ⟨⟨⟩, mid, hexpect, hnext⟩ := bind_eq_ok h
  rw [expect] at hexpect
  rcases eat_bind_eq_ok ht hexpect with ⟨taken, heq, hmid⟩ | hfail
  · cases hmid
    exact ⟨mid, heq, hnext⟩
  · cases hfail

end Steps

/-! ## Operators, signs and entries -/

/-- A reader of operators finds those of a level. -/
def Finds (op? : Token → Option BinaryOp) (level : Level) : Prop :=
  ∀ t op, op? t = some op ↔ (t, op) ∈ level

/-- The readers of operators, level by level. -/
def readers : List (Token → Option BinaryOp) := [orOp?, andOp?, relationOp?, sumOp?, productOp?]

theorem finds_readers : List.Forall₂ Finds readers levels := by
  have h : ∀ {op? : Token → Option BinaryOp} {level : Level},
      (∀ t op, op? t = some op ↔ (t, op) ∈ level) → Finds op? level := id
  refine .cons (h ?_) (.cons (h ?_) (.cons (h ?_) (.cons (h ?_) (.cons (h ?_) .nil))))
  · intro t op
    cases t <;> simp [orOp?, eq_comm]
  · intro t op
    cases t <;> simp [andOp?, eq_comm]
  · intro t op
    cases t <;> simp [relationOp?, eq_comm]
  · intro t op
    cases t <;> simp [sumOp?, eq_comm]
  · intro t op
    cases t <;> simp [productOp?, eq_comm]

theorem signOp?_eq_some_iff (t : Token) (op : UnaryOp) :
    signOp? t = some op ↔ (t, op) ∈ signs := by
  cases t <;> simp [signOp?, signs, eq_comm]

/-- An entry of a map, as the parser reads it. -/
def entryOf (expression : Nat → Parse Expr) (links : Nat) : Parse (Expr × Expr) := do
  let key ← expression links
  expect .colon "':'"
  return (key, ← expression links)

/-! ## One turn of each loop -/

section Turns

variable {c : Cursor}

theorem chainRest_of_none {op? : Token → Option BinaryOp} {c : Cursor} (h : op? c.peek = none)
    (next : Nat → Parse Expr) (links : Nat) (lhs : Expr) :
    chainRest op? next links lhs c = .ok (lhs, c) := by
  cases links <;> rw [chainRest, Parse.peek_bind, h] <;> rfl

theorem chainRest_zero_of_some {op? : Token → Option BinaryOp} {c : Cursor} {op : BinaryOp}
    (h : op? c.peek = some op) (next : Nat → Parse Expr) (lhs : Expr) :
    chainRest op? next 0 lhs c = .error (.tooDeep maxLinks) := by
  rw [chainRest, Parse.peek_bind, h]
  rfl

theorem chainRest_of_some {op? : Token → Option BinaryOp} {c : Cursor} {op : BinaryOp}
    (h : op? c.peek = some op) (next : Nat → Parse Expr) (links : Nat) (lhs : Expr) :
    chainRest op? next (links + 1) lhs c
      = (next links >>= fun rhs => chainRest op? next links (.binary op lhs rhs)) c.advance := by
  rw [chainRest, Parse.peek_bind, h]
  rfl

theorem Comprehension.name_of_named? {name : String} {kind : Comprehension}
    (h : named? name = some kind) : kind.name = name := by
  simpa using List.find?_some h

theorem Comprehension.named?_name (kind : Comprehension) : named? kind.name = some kind := by
  cases kind <;> decide +kernel

theorem methodCall_of_none {name : String} (h : Comprehension.named? name = none) (e : Expr)
    (args : List Expr) (c : Cursor) :
    methodCall e name args c = .ok (.method e name args, c) := by
  rw [methodCall, h]
  rfl

theorem methodCall_of_some {name : String} {kind : Comprehension}
    (h : Comprehension.named? name = some kind) (e : Expr) (var : String) (body : Expr)
    (c : Cursor) :
    methodCall e name [.ident var, body] c = .ok (.comprehension e kind var body, c) := by
  rw [methodCall, h]
  rfl

theorem selections_of_ne (hdot : c.peek ≠ .dot) (hbracket : c.peek ≠ .lBracket)
    (expression : Nat → Parse Expr) (links : Nat) (e : Expr) :
    selections expression links e c = .ok (e, c) := by
  cases links <;>
    rw [selections, Parse.eat_bind_of_ne hdot, if_neg Bool.false_ne_true,
      Parse.eat_bind_of_ne hbracket] <;> rfl

theorem selections_zero (h : c.peek = .dot ∨ c.peek = .lBracket)
    (expression : Nat → Parse Expr) (e : Expr) :
    selections expression 0 e c = .error (.tooDeep maxLinks) := by
  rcases h with h | h
  · rw [selections, Parse.eat_bind_of_eq h]
    rfl
  · have hdot : c.peek ≠ .dot := by simp [h]
    rw [selections, Parse.eat_bind_of_ne hdot, if_neg Bool.false_ne_true, Parse.eat_bind_of_eq h]
    rfl

theorem selections_dot (h : c.peek = .dot) (expression : Nat → Parse Expr) (links : Nat)
    (e : Expr) :
    selections expression (links + 1) e c = (advance >>= fun
      | .ident name => do
        if ← eat .lParen then
          let args ← parseSequence (expression links) .rParen
          selections expression links (← methodCall e name args)
        else selections expression links (.member e name)
      | other => failHere (.expected "field name" other)) c.advance := by
  rw [selections, Parse.eat_bind_of_eq h]
  rfl

theorem selections_bracket (h : c.peek = .lBracket) (expression : Nat → Parse Expr)
    (links : Nat) (e : Expr) :
    selections expression (links + 1) e c = (expression links >>= fun position =>
      expect .rBracket "']'" >>= fun _ =>
        selections expression links (.index e position)) c.advance := by
  have hdot : c.peek ≠ .dot := by simp [h]
  rw [selections, Parse.eat_bind_of_ne hdot, if_neg Bool.false_ne_true, Parse.eat_bind_of_eq h]
  rfl

theorem signed_of_some {op : UnaryOp} (h : signOp? c.peek = some op)
    (deeper expression : Nat → Parse Expr) (links : Nat) :
    signed deeper expression links c
      = (deeper links >>= fun e => pure (applySign op e)) c.advance := by
  rw [signed, Parse.peek_bind, h]
  rfl

theorem signed_of_none (h : signOp? c.peek = none) (deeper expression : Nat → Parse Expr)
    (links : Nat) : signed deeper expression links c = postfixed expression links c := by
  rw [signed, Parse.peek_bind, h]

section Sequences

variable {item : Parse α} {close : Token} {mid : Cursor} {a : α} (h : item c = .ok (a, mid))

include h

theorem sequenceRest_close (hclose : mid.peek = close) (fuel : Nat) (read : List α) :
    sequenceRest item close (fuel + 1) read c = .ok (read ++ [a], mid.advance) := by
  rw [sequenceRest, Parse.bind_of_ok h, Parse.eat_bind_of_eq hclose]
  rfl

theorem sequenceRest_comma_close (hcomma : mid.peek = .comma) (hne : close ≠ .comma)
    (hclose : mid.advance.peek = close) (fuel : Nat) (read : List α) :
    sequenceRest item close (fuel + 1) read c = .ok (read ++ [a], mid.advance.advance) := by
  rw [sequenceRest, Parse.bind_of_ok h, Parse.eat_bind_of_ne (hcomma.trans_ne hne.symm),
    if_neg Bool.false_ne_true, Parse.expect_bind_of_eq hcomma, Parse.eat_bind_of_eq hclose]
  rfl

theorem sequenceRest_comma (hcomma : mid.peek = .comma) (hne : close ≠ .comma)
    (hclose : mid.advance.peek ≠ close) (fuel : Nat) (read : List α) :
    sequenceRest item close (fuel + 1) read c
      = sequenceRest item close fuel (read ++ [a]) mid.advance := by
  rw [sequenceRest, Parse.bind_of_ok h, Parse.eat_bind_of_ne (hcomma.trans_ne hne.symm),
    if_neg Bool.false_ne_true, Parse.expect_bind_of_eq hcomma, Parse.eat_bind_of_ne hclose,
    if_neg Bool.false_ne_true]

theorem sequenceRest_other (hcomma : mid.peek ≠ .comma) (hclose : mid.peek ≠ close) (fuel : Nat)
    (read : List α) :
    ∃ err, sequenceRest item close (fuel + 1) read c = .error err := by
  refine ⟨.malformed mid.position (.expected "','" mid.peek), ?_⟩
  rw [sequenceRest, Parse.bind_of_ok h, Parse.eat_bind_of_ne hclose, if_neg Bool.false_ne_true]
  change (expect .comma "','" mid >>= _) = _
  have hfail : expect .comma "','" mid
      = .error (.malformed mid.position (.expected "','" mid.peek)) := by
    rw [expect, Parse.eat_bind_of_ne hcomma]
    rfl
  rw [hfail]
  rfl

end Sequences

end Turns

end GameTable.Formula
