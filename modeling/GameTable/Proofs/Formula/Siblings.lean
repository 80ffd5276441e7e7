import GameTable.Proofs.Formula.Acceptance
import GameTable.Proofs.Formula.Counters
import GameTable.Proofs.Formula.Cutting
import GameTable.Proofs.Formula.Locality

/-!
# Expressions side by side

The items of a list do not take room from one another. What an item takes of
the levels and of the links it gives back when it is read, so the next one finds
as much as the first did. A list is read if each of its items can be read as the
only one, however many there are (`siblings_have_room_of_their_own`).

The only item of a list is read by the parser that reads all of them
(`item_of_list`). It takes the whole phrase there, by what the grammar says of
its tokens, and a phrase that was read once is read in front of a comma as well
(`takes_of_read`). What is left is to cut the text of the list as the texts of
its items are cut (`exists_items`).
-/

namespace GameTable.Formula

open Phrase

/-- The tree of a text. -/
def parseText (source : String) : Except FormulaError Expr := do
  parse (← tokenize source)

/-! ## The only item of a list -/

/-- Whatever chains are read begin with an operand. -/
theorem operand_of_chains {operand : Nat → Parse Expr} {links : Nat} {c c' : Cursor} {e : Expr}
    (ops : List (Token → Option BinaryOp)) (h : ops.foldr chain operand links c = .ok (e, c')) :
    ∃ first mid, operand links c = .ok (first, mid) := by
  induction ops generalizing e c' with
  | nil => exact ⟨e, c', h⟩
  | cons op? ops ih =>
      obtain ⟨lhs, mid, hlhs, -⟩ := Parse.bind_eq_ok h
      exact ih hlhs

/-- A list that is not empty is read only if its first item is. -/
theorem item_of_list (depth : Nat) {links : Nat} {c c' : Cursor} {e : Expr} {ts : List Token}
    (hread : (grammar (depth + 2)).expression links c = .ok (e, c'))
    (hopen : c.tokens = .lBracket :: ts) (hitem : front ts ≠ .rBracket) :
    ∃ item mid, (grammar (depth + 1)).expression links c.advance = .ok (item, mid) := by
  have hpeek := Cursor.peek_of_cons hopen
  have hclose : c.advance.peek ≠ .rBracket :=
    Cursor.peek_of_tokens (Cursor.advance_of_tokens hopen) ▸ hitem
  obtain ⟨cond, _, hcond, -⟩ := Parse.bind_eq_ok hread
  obtain ⟨first, mid, hfirst⟩ := operand_of_chains readers hcond
  have hsign : signOp? c.peek = none := by
    rw [hpeek]
    rfl
  have hpostfixed : postfixed (grammar (depth + 1)).expression links c = .ok (first, mid) :=
    (signed_of_none hsign ..).symm.trans hfirst
  obtain ⟨list, _, hlist, -⟩ := Parse.bind_eq_ok hpostfixed
  rw [primary, Parse.advance_bind, hpeek] at hlist
  obtain ⟨items, _, hitems, -⟩ := Parse.bind_eq_ok hlist
  rw [parseSequence, Parse.eat_bind_of_ne hclose, if_neg Bool.false_ne_true, sequenceRest]
    at hitems
  obtain ⟨item, after, hfirst, -⟩ := Parse.bind_eq_ok hitems
  exact ⟨item, after, hfirst⟩

/-! ## Texts -/

/-- To read a text is to read its tokens. -/
theorem Cut.parseText_eq {source : String} {ts : List Token} (h : Cut source.toList ts) :
    ∃ lexemes, lexemes.map (·.token) = ts ++ [.eof] ∧ parseText source = parse lexemes := by
  obtain ⟨lexemes, htokenize, hts⟩ := h.tokenize
  refine ⟨lexemes, hts, ?_⟩
  rw [parseText, htokenize, ok_bind]

theorem Cut.parseText_list {source : String} {ts : List Token}
    (h : Cut (source.toList ++ [']']) (ts ++ [.rBracket])) :
    ∃ lexemes, lexemes.map (·.token) = .lBracket :: ts ++ [.rBracket] ++ [.eof]
      ∧ parseText ("[" ++ source ++ "]") = parse lexemes := by
  have hwhole : Cut ("[" ++ source ++ "]").toList (.lBracket :: ts ++ [.rBracket]) := by
    rw [String.toList_append, String.toList_append]
    exact h.bracket
  exact hwhole.parseText_eq

/-- The tokens of a text that is read derive its tree. -/
theorem derives_of_parseText {source : String} {e : Expr} (h : parseText source = .ok e) :
    ∃ ts, Cut source.toList ts ∧ Expression ts e := by
  obtain ⟨lexemes, htokenize, hparse⟩ := bind_eq_ok_iff.mp h
  obtain ⟨ts, hts, honly, -⟩ := exists_of_tokenize htokenize
  obtain ⟨us, hus, hcut⟩ := cut_of_tokenize htokenize
  obtain rfl : us = ts := List.append_cancel_right (hus.symm.trans hts)
  exact ⟨us, hcut, derives_of_parse hts honly hparse⟩

/-- A short text is read to the tree that its tokens derive. -/
theorem parseText_of_derives {source : String} {lexemes : List Lexeme} {ts : List Token} {e : Expr}
    (htokenize : tokenize source = .ok lexemes) (hts : lexemes.map (·.token) = ts ++ [.eof])
    (he : Expression ts e) (hshort : ts.length ≤ maxDepth) : parseText source = .ok e := by
  rw [parseText, htokenize, ok_bind, parse_of_short hts he hshort]

/-- A text that is read to this tree as an item of any list. -/
def Lists (source : String) (e : Expr) : Prop :=
  ∃ ts, Cut source.toList ts ∧ IsItem ((grammar (maxDepth - 1)).expression maxLinks) ts e

/-- What is read on its own and as the only item is read as any item. -/
theorem lists_of_read {source : String} {e list : Expr} (hread : parseText source = .ok e)
    (hlist : parseText ("[" ++ source ++ "]") = .ok list) : Lists source e := by
  obtain ⟨ts, hcut, he⟩ := derives_of_parseText hread
  refine ⟨ts, hcut, he.begins, ?_⟩
  obtain ⟨lexemes, hts, hparse⟩ := hcut.close.parseText_list
  obtain ⟨⟨_, _⟩, hexpression, -⟩ := bind_eq_ok_iff.mp (hparse.symm.trans hlist)
  have hopen : (Cursor.ofTokens lexemes).tokens = .lBracket :: (ts ++ [.rBracket, .eof]) := by
    simpa using tokens_ofTokens hts
  have hfirst : front (ts ++ [.rBracket, .eof]) ≠ .rBracket := by
    obtain ⟨t, us, rfl, ht⟩ := he.begins
    rintro rfl
    cases ht
  obtain ⟨item, mid, hitem⟩ := item_of_list (maxDepth - 2) hexpression hopen hfirst
  have htokens := Cursor.advance_of_tokens hopen
  -- The item is the phrase as a whole, as something was read where there may be no room.
  rcases (grammar_complete (maxDepth - 1)).1 maxLinks he [.rBracket, .eof] rfl _ htokens with
    ⟨c, hread, hc⟩ | ⟨-, limit, hfail⟩
  · exact takes_of_read (List.cons_ne_nil _ _) rfl htokens hread hc
  · cases hfail.symm.trans hitem

/-! ## Lists -/

theorem exists_items {items : List (String × Expr)} (h : ∀ item ∈ items, Lists item.1 item.2) :
    ∃ ts, Cut ((", ".intercalate (items.map Prod.fst)).toList ++ [']']) (ts ++ [.rBracket])
      ∧ Separated (IsItem ((grammar (maxDepth - 1)).expression maxLinks)) ts
        (items.map Prod.snd) := by
  induction items with
  | nil => exact ⟨[], Cut.nil.close, .none⟩
  | cons item items ih =>
      rw [List.forall_mem_cons] at h
      obtain ⟨⟨ts, hcut, hitem⟩, hitems⟩ := h
      cases items with
      | nil =>
          refine ⟨ts, ?_, .last hitem⟩
          rw [List.map_singleton, String.intercalate_singleton]
          exact hcut.close
      | cons next items =>
          obtain ⟨us, hcuts, hseparated⟩ := ih hitems
          refine ⟨ts ++ .comma :: us, ?_, .more hitem hseparated⟩
          rw [List.map_cons, List.map_cons, String.intercalate_cons_cons, String.toList_append,
            String.toList_append, List.append_assoc, List.append_assoc, List.append_assoc]
          exact hcut.comma hcuts

theorem parseText_list {items : List (String × Expr)} (h : ∀ item ∈ items, Lists item.1 item.2) :
    parseText ("[" ++ ", ".intercalate (items.map Prod.fst) ++ "]")
      = .ok (.list (items.map Prod.snd)) := by
  obtain ⟨ts, hcut, hitems⟩ := exists_items h
  obtain ⟨lexemes, hts, hread⟩ := hcut.parseText_list
  rw [hread]
  refine parse_of_takes (takes_condition (takes_disjunction ?_)) hts
  exact takes_operand ⟨_, _, rfl, rfl⟩ (takes_list hitems)

/-- The parser that counts is the parser, and what it reads of an expression, of a level of
operators, of selections, of a primary or of a sequence leaves both counters as it found them. So
there is room for any number of texts as items of a list, if for each of them there is room as the
only item, and the list has the trees that the items have. -/
theorem siblings_have_room_of_their_own (items : List (String × Expr))
    (h : ∀ item ∈ items, (∃ e, parseText item.1 = .ok e)
      ∧ parseText ("[" ++ item.1 ++ "]") = .ok (.list [item.2])) :
    (∀ tokens, Counting.parse tokens = parse tokens)
      ∧ Counting.Restores Counting.expression
      ∧ (∀ ops : List (Token → Option BinaryOp),
        Counting.Restores (ops.foldr Counting.chain Counting.operand))
      ∧ Counting.Restores (Counting.postfixed Counting.expression)
      ∧ Counting.Restores (Counting.primary Counting.expression)
      ∧ (∀ close, Counting.Restores (Counting.parseSequence Counting.expression close))
      ∧ parseText ("[" ++ ", ".intercalate (items.map Prod.fst) ++ "]")
        = .ok (.list (items.map Prod.snd)) := by
  refine ⟨Counting.parse_eq, Counting.restores_expression, Counting.restores_chains,
    Counting.restores_postfixed, Counting.restores_primary, Counting.restores_items,
    parseText_list fun item hitem => ?_⟩
  obtain ⟨⟨e, hread⟩, hlist⟩ := h item hitem
  have hlists := lists_of_read hread hlist
  -- As the only item it is read to the tree that it has on its own.
  have honly : parseText ("[" ++ item.1 ++ "]") = .ok (.list [e]) := by
    have honly := @parseText_list [(item.1, e)] (by simpa using hlists)
    rwa [List.map_singleton, String.intercalate_singleton] at honly
  obtain rfl : e = item.2 := by
    simpa using honly.symm.trans hlist
  exact hlists

/-- Three hundred sums side by side have more links than may ever wait. -/
theorem three_hundred_sums_have_room :
    let sum : Expr := .binary .add (.literal (.int 1)) (.literal (.int 2))
    maxLinks < 300 ∧ parseText "1 + 2" = .ok sum ∧ parseText "[1 + 2]" = .ok (.list [sum])
      ∧ parseText ("[" ++ ", ".intercalate (List.replicate 300 "1 + 2") ++ "]")
        = .ok (.list (List.replicate 300 sum)) := by
  intro sum
  have hint (n : Int) : Operand [.int n] (.literal (.int n)) := .plain (.primary (.literal rfl))
  have hsum : Expression [.int 1, .plus, .int 2] sum :=
    .plain (.tighter (.tighter (.tighter (.link (.of_operand (hint 1) _) (by simp)
      (.of_operand (hint 2) _)))))
  have hsums : Expression [.lBracket, .int 1, .plus, .int 2, .rBracket] (.list [sum]) :=
    .of_operand (.plain (.primary (.list (.last hsum))))
  have hread : parseText "1 + 2" = .ok sum := by
    have htokenize : tokenize "1 + 2"
        = .ok [⟨.int 1, 0⟩, ⟨.plus, 2⟩, ⟨.int 2, 4⟩, ⟨.eof, 5⟩] := by decide +kernel
    exact parseText_of_derives htokenize rfl hsum (by decide)
  have hlist : parseText "[1 + 2]" = .ok (.list [sum]) := by
    have htokenize : tokenize "[1 + 2]" = .ok [⟨.lBracket, 0⟩, ⟨.int 1, 1⟩, ⟨.plus, 3⟩, ⟨.int 2, 5⟩,
        ⟨.rBracket, 6⟩, ⟨.eof, 7⟩] := by decide +kernel
    exact parseText_of_derives htokenize rfl hsums (by decide)
  have h : ∀ item ∈ List.replicate 300 ("1 + 2", sum), (∃ e, parseText item.1 = .ok e)
      ∧ parseText ("[" ++ item.1 ++ "]") = .ok (.list [item.2]) := by
    intro item hitem
    obtain rfl := List.eq_of_mem_replicate hitem
    exact ⟨⟨sum, hread⟩, hlist⟩
  obtain ⟨-, -, -, -, -, -, hall⟩ := siblings_have_room_of_their_own _ h
  rw [List.map_replicate, List.map_replicate] at hall
  exact ⟨by decide, hread, hlist, hall⟩

end GameTable.Formula
