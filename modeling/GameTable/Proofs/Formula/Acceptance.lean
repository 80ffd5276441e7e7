import GameTable.Formula.Program
import GameTable.Proofs.Formula.Completeness
import GameTable.Proofs.Formula.Lexing
import GameTable.Proofs.Formula.Soundness

/-!
# The formulas that are accepted

The parser accepts the grammar: from tokens that end in their only end it reads
a tree just if they derive this tree, but for trees that are too deep
(`parse_accepts_grammar`). The tokens of a text are always of that kind
(`exists_of_tokenize`), so every formula that compiles is derived by its tokens
(`derives_of_compile`).

How deep is too deep is not part of the grammar, and all that is said of it is
that it takes more than 64 tokens. The grammar itself has no limit, and its
trees are unique at any depth (`Phrase.Expression.unique`), since the parser
reads them all if enough depth and links are left.
-/

namespace GameTable.Formula

open Phrase

/-- Tokens are a formula of one tree at most. -/
theorem Phrase.Expression.unique {ts : List Token} {e e' : Expr} (h : Expression ts e)
    (h' : Expression ts e') : e = e' := by
  let c : Cursor := .ofTokens (ts.map (⟨·, 0⟩))
  have hc : c.tokens = ts ++ [] := by
    simp [c, Cursor.tokens, Cursor.ofTokens, Function.comp_def]
  have hyields {e : Expr} (h : Expression ts e) :
      ∃ c', (grammar ts.length).expression ts.length c = .ok (e, c') := by
    rcases (grammar_complete ts.length).1 ts.length h [] rfl c hc with
      ⟨c', hok, -⟩ | ⟨hroom, -⟩
    · exact ⟨c', hok⟩
    · exact absurd (by omega) hroom
  obtain ⟨c₁, hok⟩ := hyields h
  obtain ⟨c₂, hok'⟩ := hyields h'
  rw [hok] at hok'
  cases hok'
  rfl

section Parse

variable {tokens : List Lexeme} {ts : List Token}

theorem tokens_ofTokens (htokens : tokens.map (·.token) = ts ++ [.eof]) :
    (Cursor.ofTokens tokens).tokens = ts ++ [.eof] := htokens

theorem derives_of_parse (htokens : tokens.map (·.token) = ts ++ [.eof]) (honly : .eof ∉ ts)
    {e : Expr} (h : parse tokens = .ok e) : Expression ts e := by
  rw [parse] at h
  obtain ⟨⟨e', c⟩, hread, h⟩ := bind_eq_ok_iff.mp h
  have hend : c.peek = .eof ∧ e' = e := by
    dsimp only at h
    split at h
    · rename_i hpeek
      exact ⟨hpeek, Except.ok.inj h⟩
    · cases h
  obtain ⟨hpeek, rfl⟩ := hend
  obtain ⟨us, hus, he⟩ := (grammar_sound maxDepth).1 maxLinks hread
  have htaken : ts ++ [.eof] = us ++ c.tokens := (tokens_ofTokens htokens).symm.trans hus
  -- The phrase neither ends before the tokens do, nor takes their end with it.
  rcases List.append_eq_append_iff.mp htaken with ⟨vs, rfl, hvs⟩ | ⟨vs, rfl, hvs⟩
  · cases vs with
    | nil => rwa [List.append_nil] at he
    | cons t vs =>
        obtain ⟨rfl, -⟩ := List.cons.inj hvs
        exact absurd (by simp) he.shape.eof_not_mem
  · cases vs with
    | nil => rwa [List.append_nil]
    | cons t vs =>
        have heof : t = .eof := (Cursor.peek_of_cons hvs).symm.trans hpeek
        exact absurd (by simp [heof]) honly

theorem parse_of_derives (htokens : tokens.map (·.token) = ts ++ [.eof]) {e : Expr}
    (h : Expression ts e) :
    parse tokens = .ok e
      ∨ maxDepth < ts.length ∧ ∃ limit, parse tokens = .error (.tooDeep limit) := by
  have hroom : ¬ ts.length ≤ min maxDepth maxLinks → maxDepth < ts.length := by
    have : maxDepth ≤ maxLinks := by decide
    omega
  rw [parse]
  rcases (grammar_complete maxDepth).1 maxLinks h [.eof] rfl _ (tokens_ofTokens htokens)
    with ⟨c, hread, hc⟩ | ⟨hlong, limit, hread⟩
  · left
    rw [hread, ok_bind]
    dsimp only
    rw [Cursor.peek_of_cons hc]
  · right
    rw [hread]
    exact ⟨hroom hlong, limit, rfl⟩

theorem parse_of_short (htokens : tokens.map (·.token) = ts ++ [.eof]) {e : Expr}
    (h : Expression ts e) (hshort : ts.length ≤ maxDepth) : parse tokens = .ok e :=
  (parse_of_derives htokens h).resolve_right fun ⟨hlong, _⟩ => Nat.not_lt_of_le hshort hlong

theorem compile_of_derives {source : String} (htokenize : tokenize source = .ok tokens)
    (htokens : tokens.map (·.token) = ts ++ [.eof]) {e : Expr} (h : Expression ts e)
    (hshort : ts.length ≤ maxDepth) (hcheck : check e = .ok ()) :
    Program.compile source = .ok ⟨source, e⟩ := by
  rw [Program.compile, htokenize, ok_bind, parse_of_short htokens h hshort, ok_bind, hcheck]
  rfl

/-- What a text is compiled to is derived by its tokens. -/
theorem derives_of_compile {source : String} {program : Program}
    (h : Program.compile source = .ok program) :
    ∃ tokens ts, tokenize source = .ok tokens ∧ tokens.map (·.token) = ts ++ [.eof]
      ∧ Expression ts program.expr := by
  obtain ⟨tokens, htokenize, h⟩ := bind_eq_ok_iff.mp h
  obtain ⟨expr, hparse, h⟩ := bind_eq_ok_iff.mp h
  obtain ⟨-, h⟩ := andThen_eq_ok_iff.mp h
  obtain rfl := Except.ok.inj h
  obtain ⟨ts, htokens, honly, -⟩ := exists_of_tokenize htokenize
  exact ⟨tokens, ts, htokenize, htokens, derives_of_parse htokens honly hparse⟩

/-- Integers that are read as operands have an opposite of 64 bits. -/
theorem fits_neg_of_operand (hints : ∀ n, .int n ∈ ts → 0 ≤ n ∧ n ≤ maxInteger)
    {depth links : Nat} {c c' : Cursor} (hc : c.tokens ⊆ ts ++ [.eof]) {n : Int}
    (h : (grammar depth).operand links c = .ok (.literal (.int n), c')) : Fits (-n) := by
  obtain ⟨us, hus, he⟩ := (grammar_sound depth).2 links h
  obtain ⟨m, hm, heq⟩ := he.shape.counted n rfl
  have hmem : .int m ∈ ts ++ [.eof] := hc (hus ▸ List.mem_append_left _ hm)
  have hfits := hints m (by simpa using hmem)
  simp only [Fits, minInteger, maxInteger] at hfits ⊢
  omega

/-- Tokens end in their only end, and their integers are of 64 bits and not negative. A tree that
is read from them is one that they derive. A tree that they derive is read, unless it is found too
deep, which takes more than 64 tokens. And no minus meets an integer whose opposite does not fit,
wherever in the tokens and however deep the operand behind it is read. -/
theorem parse_accepts_grammar (htokens : tokens.map (·.token) = ts ++ [.eof]) (honly : .eof ∉ ts)
    (hints : ∀ n, .int n ∈ ts → 0 ≤ n ∧ n ≤ maxInteger) :
    (∀ e, parse tokens = .ok e → Expression ts e)
      ∧ (∀ e, Expression ts e → parse tokens = .ok e
        ∨ maxDepth < ts.length ∧ ∃ limit, parse tokens = .error (.tooDeep limit))
      ∧ ∀ depth links (c c' : Cursor) n, c.rest <:+ tokens →
        (grammar depth).operand links c = .ok (.literal (.int n), c') → Fits (-n) := by
  refine ⟨fun e => derives_of_parse htokens honly, fun e => parse_of_derives htokens, ?_⟩
  intro depth links c c' n hc h
  have hsuffix : c.tokens ⊆ ts ++ [.eof] := htokens ▸ List.map_subset _ hc.subset
  exact fits_neg_of_operand hints hsuffix h

/-- The first number above zero, and two. The signs of the two cancel out, the call becomes a
comprehension, and there is a comma more than there need be. No other tree has these tokens. -/
theorem parse_accepts_first_positive :
    let ts : List Token := [.minus, .minus, .int 2, .plus, .ident "xs", .dot, .ident "filter",
      .lParen, .ident "x", .comma, .ident "x", .gt, .int 0, .comma, .rParen, .lBracket, .int 0,
      .rBracket]
    let tokens : List Lexeme := (ts ++ [Token.eof]).map (⟨·, 0⟩)
    let e : Expr := .binary .add (.literal (.int 2))
      (.index (.comprehension (.ident "xs") .filter "x"
        (.binary .gt (.ident "x") (.literal (.int 0)))) (.literal (.int 0)))
    parse tokens = .ok e ∧ Expression ts e ∧ ∀ e', Expression ts e' → e' = e := by
  intro ts tokens e
  have hints : ∀ n, .int n ∈ ts → 0 ≤ n ∧ n ≤ maxInteger := by
    intro n hn
    simp only [ts, List.mem_cons, Token.int.injEq, reduceCtorEq, List.not_mem_nil, false_or,
      or_false] at hn
    rcases hn with rfl | rfl | rfl <;> decide
  have hint (n : Int) : Operand [.int n] (.literal (.int n)) := .plain (.primary (.literal rfl))
  have hname (name : String) : Operand [.ident name] (.ident name) := .plain (.primary .name)
  have hminus {ts : List Token} {e : Expr} (h : Operand ts e) :
      Operand (.minus :: ts) (applySign .neg e) := .signed (by simp [signs]) h
  have hbody : Expression ([.ident "x"] ++ .gt :: [.int 0])
      (.binary .gt (.ident "x") (.literal (.int 0))) :=
    .plain (.tighter (.tighter (.link (.of_operand (hname "x") _) (by simp)
      (.of_operand (hint 0) _))))
  have hfirst : Selection _ (.index (.comprehension (.ident "xs") .filter "x" _) (.literal _)) :=
    .index (.comprehension (.primary .name) (.more (.of_operand (hname "x")) (.more hbody .none)))
      (.of_operand (hint 0))
  have hderives : Expression ts e :=
    .plain (.tighter (.tighter (.tighter (.link (.of_operand (hminus (hminus (hint 2))) _)
      (by simp) (.of_operand (.plain hfirst) _)))))
  obtain ⟨hsound, hcomplete, -⟩ := @parse_accepts_grammar tokens ts rfl (by decide) hints
  have hparse {e' : Expr} (he' : Expression ts e') : parse tokens = .ok e' := by
    rcases hcomplete e' he' with hok | ⟨hlong, -⟩
    · exact hok
    · exact absurd hlong (by decide)
  refine ⟨hparse hderives, hsound e (hparse hderives), fun e' he' => ?_⟩
  exact Except.ok.inj ((hparse he').symm.trans (hparse hderives))

end Parse

end GameTable.Formula
